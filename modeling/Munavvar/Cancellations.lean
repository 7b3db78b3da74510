import Munavvar.OperationLocks
import Munavvar.OrderShape
import Munavvar.QuotaConservation

/-!
# Cancellations that succeed

A single cancellation and the batches of the scheduled jobs leave the same rows
and release the same quota. In a database that a serial run has made none of
them can fail: the counters cover what the orders hold, and every row that is
written fits its columns.
-/

namespace Munavvar.Cancellations

open Munavvar.KeyedTable
open Munavvar.Transaction
open Munavvar.Transaction.Prog
open Munavvar.Database
open Munavvar.Statements
open Munavvar.StockLedger
open Munavvar.OrderQueries
open Munavvar.Quota
open Munavvar.OrderService
open Munavvar.Operations
open Munavvar.OrderChanges
open Munavvar.ContractEffects
open Munavvar.OperationLocks
open Munavvar.OrderInvariants (OrdersMeet)
open Munavvar.OrderShape
open Munavvar.QuotaConservation

/-! ## What serial runs keep -/

/-- A stored row that has passed the constraints of its table. -/
def Fits : (k : Key) → Option (Row k) → Prop
  | .order _, row => ∀ o : Order, row = some o → int64 o.totalAmount = true
  | .priceItem _ _, row => ∀ p : PriceItem, row = some p → ∀ c ∈ p.constraints, c.1 = true
  | _, _ => True

/-- Statements on orders check the total whenever they set it. -/
theorem order_exec_fits {st : OrderStmt} {old new : Option Order}
    (h : ∀ o, old = some o → int64 o.totalAmount = true) (hexec : st.exec old = .ok new) :
    ∀ o, new = some o → int64 o.totalAmount = true := by
  rintro o rfl
  cases old with
  | none =>
    cases st with
    | insert order =>
      obtain ⟨hrow, hchecks⟩ := checked_ok hexec
      cases hrow
      exact hchecks _ List.mem_cons_self
    | _ => cases hexec
  | some old =>
    have hold := h old rfl
    cases st with
    | insert order => cases hexec
    | addItems items =>
      obtain ⟨hrow, -⟩ := checked_ok hexec
      cases hrow
      exact hold
    | update data now =>
      obtain ⟨hrow, hchecks⟩ := checked_ok hexec
      cases hrow
      exact hchecks _ List.mem_cons_self
    | updateQuantity index quantity =>
      rw [OrderStmt.exec] at hexec
      split at hexec
      · obtain ⟨hrow, -⟩ := checked_ok hexec
        cases hrow
        exact hold
      · cases hexec
        exact hold
    | deleteItem productId =>
      cases hexec
      exact hold
    | logTransition entry =>
      obtain ⟨hrow, -⟩ := checked_ok hexec
      cases hrow
      exact hold

/-- Statements on price items check the row they leave. -/
theorem priceItem_exec_fits {st : PriceItemStmt} {old new : Option PriceItem}
    (h : ∀ p, old = some p → ∀ c ∈ p.constraints, c.1 = true) (hexec : st.exec old = .ok new) :
    ∀ p, new = some p → ∀ c ∈ p.constraints, c.1 = true := by
  rintro p rfl
  cases old with
  | none =>
    cases st with
    | insert id price quantity =>
      obtain ⟨hrow, hchecks⟩ := checked_ok hexec
      cases hrow
      exact hchecks
    | _ => cases hexec
  | some old =>
    have hold := h old rfl
    cases st with
    | insert id price quantity => cases hexec
    | delete id =>
      simp only [PriceItemStmt.exec, Except.ok.injEq] at hexec
      split at hexec
      · cases hexec
      · cases hexec
        exact hold
    | update id price quantity =>
      simp only [PriceItemStmt.exec] at hexec
      split at hexec
      · obtain ⟨hrow, hchecks⟩ := checked_ok hexec
        cases hrow
        exact hchecks
      · cases hexec
        exact hold
    | increment id delta =>
      simp only [PriceItemStmt.exec] at hexec
      split at hexec
      · obtain ⟨hrow, hchecks⟩ := checked_ok hexec
        cases hrow
        exact hchecks
      · cases hexec
        exact hold
    | decrement delta =>
      simp only [PriceItemStmt.exec] at hexec
      split at hexec
      · obtain ⟨hrow, hchecks⟩ := checked_ok hexec
        cases hrow
        exact hchecks
      · cases hexec
        exact hold

/-- No statement stores a row that does not fit. -/
theorem exec_fits {k : Key} {st : Stmt k} {old new : Option (Row k)} (h : Fits k old)
    (hexec : exec k st old = .ok new) : Fits k new := by
  cases k with
  | order id => exact order_exec_fits h hexec
  | priceItem c p => exact priceItem_exec_fits h hexec
  | _ => exact trivial

/-- Every row fits. -/
def AllFit (s : Db) : Prop := ∀ k, Fits k (s.get k)

/-- What every serial run keeps of orders and price items. -/
structure Consistent (s : Db) : Prop where
  /-- The counters agree with the orders. -/
  kept : QuotaKept s
  /-- Orders are not deleted. -/
  active : AllActive s
  /-- The status of an order fits its other columns. -/
  founded : OrdersMeet Founded s
  /-- No row violates the constraints of its table. -/
  fits : AllFit s

theorem Consistent.total_fits {s : Db} (h : Consistent s) {id : Uuid} {o : Order}
    (ho : s.orders.find? id = some o) : int64 o.totalAmount = true := h.fits (.order id) o ho

theorem Consistent.price_fits {s : Db} (h : Consistent s) {k : Uuid × Uuid} {p : PriceItem}
    (hp : s.priceItems.find? k = some p) : ∀ c ∈ p.constraints, c.1 = true :=
  h.fits (.priceItem k.1 k.2) p hp

/-- Only orders and price items matter. -/
theorem Consistent.of_eq {s s' : Db} (h : Consistent s) (horders : s'.orders = s.orders)
    (hprices : s'.priceItems = s.priceItems) : Consistent s' := by
  obtain ⟨⟨hok, hused, hmissing⟩, hactive, hfounded, hfits⟩ := h
  refine ⟨⟨?_, ?_, ?_⟩, ?_, ?_, fun k => ?_⟩
  · rwa [OrdersOk, horders]
  · rwa [hprices, horders]
  · rwa [hprices, horders]
  · rwa [AllActive, horders]
  · rwa [OrdersMeet, horders]
  · have hk := hfits k
    cases k with
    | order id =>
      intro o ho
      change s'.orders.find? id = some o at ho
      rw [horders] at ho
      exact hk o ho
    | priceItem c p =>
      intro row hrow
      change s'.priceItems.find? (c, p) = some row at hrow
      rw [hprices] at hrow
      exact hk row hrow
    | _ => exact trivial

/-- Every request that is served alone keeps the rows fitting. -/
theorem program_fits {s : Db} (h : AllFit s) (r : Request) :
    wp Regime.serial (program r) (fun _ s' => AllFit s') (fun _ => True) s := by
  refine wp_within (within_true _) (fun _ _ _ _ => trivial) (fun _ _ => trivial)
    (fun _ _ _ _ _ _ => trivial) (fun s k st r _ hs hexec j => ?_) h
  by_cases hj : j = k
  · subst hj
    have hget : (s.put j r).get j = r := s.get_put_self j r
    change Fits j ((s.put j r).get j)
    rw [hget]
    exact exec_fits (hs j) hexec
  · have hget : (s.put k r).get j = s.get j := s.get_put_ne k r j hj
    change Fits j ((s.put k r).get j)
    rw [hget]
    exact hs j

/-- Every request that is served alone keeps the orders in shape. -/
theorem program_founded {s : Db} (h : OrdersMeet Founded s) (r : Request) :
    wp Regime.serial (program r) (fun _ s' => OrdersMeet Founded s') (fun _ => True) s := by
  have hok : OrdersOk s := fun id o ho => (h id o ho).orderOk
  have hchanges := program_changes (r := r) Tame.serial hok
    fun s₁ _ => releasable_of_lax Regime.serial_lax s₁
  refine wp_mono _ hchanges (fun _ s' hs' => ?_) fun _ he => he
  exact hs'.induction h fun s₁ s₂ h₁ hchange =>
    founded_invariant.change (r := r) (d := s₁.directory) rfl h₁ hchange

/-- Every serial run leaves the database consistent. -/
theorem after_consistent (s : Db) (rs : List Request) : Consistent (after rs (fresh s)) := by
  have hactive : AllActive (fresh s) := fun _ _ h => nomatch h
  have hfounded : OrdersMeet Founded (fresh s) := fun _ _ h => nomatch h
  have hfits : AllFit (fresh s) := by
    intro k
    cases k with
    | order id => exact fun _ h => nomatch h
    | priceItem c p => exact fun _ h => nomatch h
    | _ => exact trivial
  constructor
  · exact after_quotaKept s rs
  · exact serveAll_induction hactive (fun r s' hs => serve_of_wp
      (program_allActive Regime.serial_sound Regime.serial_lax hs r) hs) rs
  · exact serveAll_induction hfounded (fun r s' hs => serve_of_wp (program_founded hs r) hs) rs
  · exact serveAll_induction hfits (fun r s' hs => serve_of_wp (program_fits hs r) hs) rs

/-! ## Locks without rivals -/

/-- The stored orders that match. -/
def matching (isMatch : Order → Bool) (s : Db) : List (Uuid × Order) :=
  s.orders.rows.filter fun r => isMatch r.2

theorem mem_matching {isMatch : Order → Bool} {s : Db} {x : Uuid × Order} :
    x ∈ matching isMatch s ↔ s.orders.find? x.1 = some x.2 ∧ isMatch x.2 = true := by
  rw [matching, List.mem_filter]
  exact and_congr_left' (s.orders.mem_rows_iff x.1 x.2)

theorem matching_eq_nil {isMatch : Order → Bool} {s : Db}
    (h : ∀ id o, s.orders.find? id = some o → isMatch o = false) : matching isMatch s = [] := by
  rw [matching, List.filter_eq_nil_iff]
  intro x hx
  rw [h x.1 x.2 ((s.orders.mem_rows_iff x.1 x.2).mp hx)]
  exact Bool.false_ne_true

theorem matching_nodup (isMatch : Order → Bool) (s : Db) :
    ((matching isMatch s).map Prod.fst).Nodup :=
  (List.filter_sublist.map Prod.fst).nodup s.orders.nodup

section Rules

variable {R : Regime schema} {E : Err → Prop} {s : Db}

/-- Where no lock is held, the first candidates are locked. -/
theorem wp_lockCandidates_alone (hskips : ¬ R.skips) {isMatch : Order → Bool}
    {xs : List (Uuid × Order)}
    (hxs : ∀ x ∈ xs, s.orders.find? x.1 = some x.2 ∧ isMatch x.2 = true) (n : ℕ)
    {Q : List (Uuid × Order) → Db → Prop} (hQ : Q (xs.take n) s) :
    wp R (lockCandidates isMatch n (xs.map Prod.fst)) Q E s := by
  induction xs generalizing n Q with
  | nil => cases n <;> exact hQ
  | cons x xs ih =>
    cases n with
    | zero => exact hQ
    | succ n =>
      obtain ⟨hfind, hmatch⟩ := hxs x List.mem_cons_self
      have hrow : (s.orders.find? x.1).filter isMatch = some x.2 := by
        rw [hfind, Option.filter_some, if_pos hmatch]
      rw [List.map_cons]
      refine LifecycleEffects.wp_lockCandidates_cons (fun o ho => ?_) (fun hnone => ?_)
        fun h => absurd h hskips
      · cases hrow.symm.trans ho
        exact ih (fun y hy => hxs y (List.mem_cons_of_mem x hy)) n hQ
      · cases hrow.symm.trans hnone

theorem wp_lockMatching_alone (hexact : R.Exact) (hskips : ¬ R.skips) {isMatch : Order → Bool}
    {limit : Option ℕ} {Q : List (Uuid × Order) → Db → Prop}
    (hQ : Q ((matching isMatch s).take (limit.getD (matching isMatch s).length)) s) :
    wp R (lockMatching isMatch limit) Q E s := by
  rw [lockMatching, wp_bind, wp_ask]
  intro v hv
  rw [hexact s v hv, List.length_map]
  exact wp_lockCandidates_alone hskips (fun x hx => mem_matching.mp hx) _ hQ

theorem wp_lockMatching_none (hexact : R.Exact) (hskips : ¬ R.skips) {isMatch : Order → Bool}
    (hnone : matching isMatch s = []) {limit : Option ℕ} {Q : List (Uuid × Order) → Db → Prop}
    (hQ : Q [] s) : wp R (lockMatching isMatch limit) Q E s := by
  refine wp_lockMatching_alone hexact hskips ?_
  rwa [hnone, List.take_nil]

/-! ## Statements that fit -/

theorem wp_update_fits (hlax : R.Lax) {id : Uuid} {o : Order} (ho : s.orders.find? id = some o)
    {data : OrderUpdate} {now : ℤ} (htotal : int64 (o.set data now).totalAmount = true)
    (hreason : fits 500 data.cancellationReason = true) {Q : Unit → Db → Prop}
    (hQ : Q () (s.put (.order id) (some (o.set data now)))) :
    wp R (issue (.order id) (.update data now)) Q E s := by
  have hexec : exec (.order id) (.update data now) (s.get (.order id)) =
      checked (o.set data now)
        [(int64 (o.set data now).totalAmount, .outOfRange "orders.total_amount"),
         (fits 500 data.cancellationReason, .stringTooLong "orders.cancellation_reason")] := by
    change OrderStmt.exec (.update data now) (s.orders.find? id) = _
    rw [ho]
    rfl
  refine wp_checked hlax hexec (.inl fun c hc => ?_) fun _ => hQ
  rw [List.mem_cons, List.mem_singleton] at hc
  rcases hc with rfl | rfl
  · exact htotal
  · exact hreason

theorem wp_log_fits (hlax : R.Lax) {id : Uuid} {o : Order} (ho : s.orders.find? id = some o)
    {entry : OrderStatusLog} (hreason : fits 500 entry.reason = true) {Q : Unit → Db → Prop}
    (hQ : Q () (s.put (.order id) (some { o with statusLogs := o.statusLogs ++ [entry] }))) :
    wp R (issue (.order id) (.logTransition entry)) Q E s := by
  have hexec : exec (.order id) (.logTransition entry) (s.get (.order id)) =
      checked { o with statusLogs := o.statusLogs ++ [entry] }
        [(fits 500 entry.reason, .stringTooLong "order_status_logs.reason")] := by
    change OrderStmt.exec (.logTransition entry) (s.orders.find? id) = _
    rw [ho]
    rfl
  refine wp_checked hlax hexec (.inl fun c hc => ?_) fun _ => hQ
  rw [List.mem_singleton.mp hc]
  exact hreason

/-! ## Release of quota that is counted -/

/-- Counters lowered by some amounts. -/
def Lowered (t t' : Table (Uuid × Uuid) PriceItem) (amount : Uuid × Uuid → ℤ) : Prop :=
  ∀ k, t'.find? k = (t.find? k).map fun p => { p with quantityUsed := p.quantityUsed - amount k }

theorem lowered_zero (t : Table (Uuid × Uuid) PriceItem) : Lowered t t fun _ => 0 := by
  intro k
  simp

theorem Lowered.trans {t t' t'' : Table (Uuid × Uuid) PriceItem} {f g : Uuid × Uuid → ℤ}
    (h : Lowered t t' f) (h' : Lowered t' t'' g) : Lowered t t'' fun k => f k + g k := by
  intro k
  rw [h' k, h k, Option.map_map]
  congr 1
  funext p
  dsimp only [Function.comp]
  rw [sub_sub]

theorem Lowered.congr {t t' : Table (Uuid × Uuid) PriceItem} {f g : Uuid × Uuid → ℤ}
    (h : Lowered t t' f) (heq : ∀ k, g k = f k) : Lowered t t' g := by
  intro k
  rw [h k, heq k]

/-- What is taken from a price item is counted on it. -/
def Counted (t : Table (Uuid × Uuid) PriceItem) (amount : Uuid × Uuid → ℤ) : Prop :=
  ∀ k, 0 < amount k → ∃ p, t.find? k = some p ∧ p.isActive = true ∧
    (∀ c ∈ p.constraints, c.1 = true) ∧ amount k ≤ p.quantityUsed

/-- Quota that is counted can be released to the last piece. -/
theorem wp_release_counted (hlax : R.Lax) {contractId : Uuid} {qs : List (Uuid × ℤ)}
    (hpos : ∀ x ∈ qs, 0 < x.2) (hcounted : Counted s.priceItems (demand contractId qs))
    {Q : Unit → Db → Prop}
    (hQ : ∀ t, Lowered s.priceItems t (demand contractId qs) → Q () { s with priceItems := t }) :
    wp R (decrementQuantitiesUsed contractId qs) Q E s := by
  refine wp_releaseAll hlax hpos (.inl fun x hx => ?_) fun t hreleased _ => hQ t fun k => ?_
  · have hle := le_demand (c := contractId) hpos hx
    have hx := hpos x hx
    obtain ⟨p, hp, hactive, hchecks, -⟩ := hcounted (contractId, x.1) (by omega)
    exact ⟨p, hp, hactive, hchecks⟩
  · rw [hreleased.find_eq k]
    rcases (demand_nonneg (c := contractId) hpos k).lt_or_eq with hlt | hzero
    · obtain ⟨p, hp, -, -, hle⟩ := hcounted k hlt
      rw [hp, Option.map_some, Option.map_some, released_of_le hle]
    · congr 1
      funext p
      rw [← hzero, released_zero, sub_zero]

end Rules

/-! ## What a cancellation leaves -/

/-- What some orders hold of a price item. -/
def heldBy (xs : List (Uuid × Order)) (k : Uuid × Uuid) : ℤ := (xs.map fun x => held x.2 k).sum

theorem heldBy_append (xs ys : List (Uuid × Order)) (k : Uuid × Uuid) :
    heldBy (xs ++ ys) k = heldBy xs k + heldBy ys k := by
  simp only [heldBy, List.map_append, List.sum_append]

/-- The row of a cancelled order. -/
def cancelledBy (env : Env) (author : Option Uuid) (reason : String) (o : Order) : Order :=
  { o with
    status := .cancelled
    quantitiesReserved := false
    cancellationReason := some reason
    updatedAt := env.now
    statusLogs := o.statusLogs ++ [⟨some o.status, .cancelled, author, some reason⟩] }

theorem cancelledBy_ok {env : Env} {author : Option Uuid} {reason : String} {o : Order}
    (h : OrderOk o) : OrderOk (cancelledBy env author reason o) where
  reserved_iff := by simp [cancelledBy]
  items_ok := h.items_ok

/-- Some orders are cancelled, each for its own reason, and the counters drop by
what they held; the other orders stay. -/
structure Cancels (env : Env) (author : Option Uuid) (reason : Order → String)
    (xs : List (Uuid × Order)) (s s' : Db) : Prop where
  /-- The rows. -/
  orders : Stored xs (fun x => cancelledBy env author (reason x.2) x.2) s.orders s'.orders
  /-- The counters. -/
  used : Lowered s.priceItems s'.priceItems (heldBy xs)

section Effects

variable {env : Env} {author : Option Uuid} {reason : Order → String} {xs ys : List (Uuid × Order)}
  {s s₁ s₂ : Db}

theorem cancels_nil (env : Env) (author : Option Uuid) (reason : Order → String) (s : Db) :
    Cancels env author reason [] s s where
  orders := ⟨fun _ h => absurd h List.not_mem_nil, fun _ _ => rfl⟩
  used := lowered_zero _

/-- One batch after another. -/
theorem Cancels.trans (h : Cancels env author reason xs s s₁) (h' : Cancels env author reason ys s₁ s₂)
    (hfresh : ∀ x ∈ xs, x.1 ∉ ys.map Prod.fst) : Cancels env author reason (xs ++ ys) s s₂ := by
  constructor
  · constructor
    · intro x hx
      rcases List.mem_append.mp hx with hx | hx
      · rw [h'.orders.others x.1 (hfresh x hx)]
        exact h.orders.batch x hx
      · exact h'.orders.batch x hx
    · intro k hk
      rw [List.map_append, List.mem_append, not_or] at hk
      rw [h'.orders.others k hk.2, h.orders.others k hk.1]
  · exact (h.used.trans h'.used).congr fun k => heldBy_append xs ys k

/-- The order of a batch does not matter. -/
theorem Cancels.perm (h : Cancels env author reason xs s s₁) (hperm : xs.Perm ys) :
    Cancels env author reason ys s s₁ := by
  constructor
  · constructor
    · exact fun y hy => h.orders.batch y (hperm.mem_iff.mpr hy)
    · exact fun k hk => h.orders.others k fun hx => hk ((hperm.map Prod.fst).mem_iff.mp hx)
  · refine h.used.congr fun k => ?_
    exact (hperm.map fun x : Uuid × Order => held x.2 k).sum_eq.symm

/-- Only orders and price items matter. -/
theorem Cancels.of_eq {s₀ : Db} (h : Cancels env author reason xs s s₁) (horders : s₀.orders = s.orders)
    (hprices : s₀.priceItems = s.priceItems) (horders' : s₂.orders = s₁.orders)
    (hprices' : s₂.priceItems = s₁.priceItems) : Cancels env author reason xs s₀ s₂ where
  orders := by
    rw [horders, horders']
    exact h.orders
  used := by
    rw [hprices, hprices']
    exact h.used

/-- Only the reasons of the orders that are cancelled matter. -/
theorem Cancels.congr {reason' : Order → String} (h : Cancels env author reason xs s s₁)
    (heq : ∀ x ∈ xs, reason' x.2 = reason x.2) : Cancels env author reason' xs s s₁ where
  orders := h.orders.congr fun x hx => by rw [heq x hx]
  used := h.used

/-- An order of the new state is as it was or cancelled. -/
theorem Cancels.find?_cases (h : Cancels env author reason xs s s₁) {id : Uuid} {o : Order}
    (ho : s₁.orders.find? id = some o) :
    s.orders.find? id = some o ∨
      ∃ x ∈ xs, x.1 = id ∧ o = cancelledBy env author (reason x.2) x.2 := by
  by_cases hid : id ∈ xs.map Prod.fst
  · obtain ⟨x, hx, rfl⟩ := List.mem_map.mp hid
    have hbatch := h.orders.batch x hx
    exact .inr ⟨x, hx, rfl, Option.some.inj (ho.symm.trans hbatch)⟩
  · exact .inl (h.orders.others id hid ▸ ho)

theorem heldBy_nonneg (hs : OrdersOk s) (hrows : ∀ x ∈ xs, s.orders.find? x.1 = some x.2)
    (k : Uuid × Uuid) : 0 ≤ heldBy xs k := by
  refine List.sum_nonneg fun q hq => ?_
  obtain ⟨x, hx, rfl⟩ := List.mem_map.mp hq
  exact held_nonneg (hs x.1 x.2 (hrows x hx)) k

theorem heldBy_le_total (hs : OrdersOk s) (hnodup : (xs.map Prod.fst).Nodup)
    (hrows : ∀ x ∈ xs, s.orders.find? x.1 = some x.2) (k : Uuid × Uuid) :
    heldBy xs k ≤ totalHeld s k :=
  Table.sum_le_total (g := fun _ o => held o k) (fun id o ho => held_nonneg (hs id o ho) k)
    hnodup hrows

/-- The orders hold no more what the cancelled ones held. -/
theorem Cancels.total (h : Cancels env author reason xs s s₁) (hnodup : (xs.map Prod.fst).Nodup)
    (hrows : ∀ x ∈ xs, s.orders.find? x.1 = some x.2) (k : Uuid × Uuid) :
    totalHeld s₁ k = totalHeld s k - heldBy xs k := by
  let moved := xs.map fun x => (x.1, x.2, cancelledBy env author (reason x.2) x.2)
  have hkeys : (moved.map Prod.fst).Nodup := by rwa [List.map_map]
  have hstep : ∀ x ∈ moved, s.orders.find? x.1 = some x.2.1 ∧ x.2.2.quantitiesReserved = false := by
    intro x hx
    obtain ⟨y, hy, rfl⟩ := List.mem_map.mp hx
    exact ⟨hrows y hy, rfl⟩
  have hfind : ∀ j, s₁.orders.find? j =
      ((moved.map fun x => (x.1, x.2.2)).lookup j).or (s.orders.find? j) := by
    intro j
    rw [h.orders.find?_eq, List.map_map]
    rfl
  rw [totalHeld, total_of_cancelled hkeys hstep hfind, List.map_map, heldBy, sub_eq_add_neg,
    List.sum_neg, List.map_map]
  rfl

/-- A price item of the new state is one of the old with less on its counter. -/
theorem Cancels.priceItem (h : Cancels env author reason xs s s₁) {k : Uuid × Uuid} {p : PriceItem}
    (hp : s₁.priceItems.find? k = some p) : ∃ p₀, s.priceItems.find? k = some p₀ ∧
      p = { p₀ with quantityUsed := p₀.quantityUsed - heldBy xs k } := by
  rw [h.used k] at hp
  obtain ⟨p₀, hp₀, rfl⟩ := Option.map_eq_some_iff.mp hp
  exact ⟨p₀, hp₀, rfl⟩

/-- Cancellations keep the counters in agreement with the orders. -/
theorem Cancels.quotaKept (h : Cancels env author reason xs s s₁) (hs : QuotaKept s)
    (hnodup : (xs.map Prod.fst).Nodup) (hrows : ∀ x ∈ xs, s.orders.find? x.1 = some x.2) :
    QuotaKept s₁ := by
  have htotal := h.total hnodup hrows
  constructor
  · intro id o ho
    rcases h.find?_cases ho with hold | ⟨x, hx, rfl, rfl⟩
    · exact hs.ordersOk id o hold
    · exact cancelledBy_ok (hs.ordersOk x.1 x.2 (hrows x hx))
  · intro k p hp
    obtain ⟨p₀, hp₀, rfl⟩ := h.priceItem hp
    obtain ⟨hactive, hused⟩ := hs.used_eq k p₀ hp₀
    refine ⟨hactive, ?_⟩
    rw [show (s₁.orders.total fun _ o => held o k) = totalHeld s k - heldBy xs k from htotal k]
    exact congrArg (· - heldBy xs k) hused
  · intro k hk
    rw [h.used k, Option.map_eq_none_iff] at hk
    have hzero : totalHeld s k = 0 := hs.missing k hk
    have hle := heldBy_le_total hs.ordersOk hnodup hrows k
    have hnonneg := heldBy_nonneg hs.ordersOk hrows k
    rw [show (s₁.orders.total fun _ o => held o k) = totalHeld s k - heldBy xs k from htotal k]
    omega

/-- A consistent database stays consistent. -/
theorem Cancels.consistent (h : Cancels env author reason xs s s₁) (hs : Consistent s)
    (hnodup : (xs.map Prod.fst).Nodup) (hrows : ∀ x ∈ xs, s.orders.find? x.1 = some x.2) :
    Consistent s₁ := by
  constructor
  · exact h.quotaKept hs.kept hnodup hrows
  · intro id o ho
    rcases h.find?_cases ho with hold | ⟨x, hx, rfl, rfl⟩
    · exact hs.active id o hold
    · exact hs.active x.1 x.2 (hrows x hx)
  · intro id o ho
    rcases h.find?_cases ho with hold | ⟨x, hx, rfl, rfl⟩
    · exact hs.founded id o hold
    · have hfounded := hs.founded x.1 x.2 (hrows x hx)
      constructor
      · exact cancelledBy_ok hfounded.orderOk
      · exact fun hunder => absurd hunder (not_isUnderway (.inr (.inr rfl)))
      · exact nofun
      · exact hfounded.pickup
  · intro j
    cases j with
    | order id =>
      intro o ho
      rcases h.find?_cases ho with hold | ⟨x, hx, rfl, rfl⟩
      · exact hs.total_fits hold
      · exact hs.total_fits (o := x.2) (hrows x hx)
    | priceItem c p =>
      intro row hrow
      obtain ⟨p₀, hp₀, rfl⟩ := h.priceItem (k := (c, p)) hrow
      have hused : p₀.quantityUsed = totalHeld s (c, p) := (hs.kept.used_eq (c, p) p₀ hp₀).2
      have hle := heldBy_le_total hs.kept.ordersOk hnodup hrows (c, p)
      have hnonneg := heldBy_nonneg hs.kept.ordersOk hrows (c, p)
      exact constraints_released (hs.price_fits hp₀) (by omega) (by omega)
    | _ => exact trivial

/-- The orders that match are the same where those that are cancelled do not. -/
theorem Cancels.matching_perm (h : Cancels env author reason xs s s₁) {p : Order → Bool}
    (hlive : ∀ o, p o = true → o.status ≠ .cancelled)
    (hxs : ∀ x ∈ xs, s.orders.find? x.1 = some x.2 ∧ p x.2 = false) :
    (matching p s₁).Perm (matching p s) := by
  refine (List.perm_ext_iff_of_nodup (matching_nodup _ _).of_map (matching_nodup _ _).of_map).mpr
    fun y => ?_
  rw [mem_matching, mem_matching]
  constructor
  · rintro ⟨hfind, hmatch⟩
    rcases h.find?_cases hfind with hold | ⟨x, -, -, hcancelled⟩
    · exact ⟨hold, hmatch⟩
    · exact absurd (congrArg Order.status hcancelled) (hlive y.2 hmatch)
  · rintro ⟨hfind, hmatch⟩
    have hfresh : y.1 ∉ xs.map Prod.fst := by
      intro hmem
      obtain ⟨x, hx, heq⟩ := List.mem_map.mp hmem
      obtain ⟨hrow, hnot⟩ := hxs x hx
      rw [heq, hfind, Option.some.injEq] at hrow
      rw [hrow, hnot] at hmatch
      cases hmatch
    exact ⟨(h.orders.others y.1 hfresh).trans hfind, hmatch⟩

/-- What some stored orders hold is counted. -/
theorem Consistent.counted (hs : Consistent s) (hnodup : (xs.map Prod.fst).Nodup)
    (hrows : ∀ x ∈ xs, s.orders.find? x.1 = some x.2) : Counted s.priceItems (heldBy xs) := by
  intro k hpos
  have hle := heldBy_le_total hs.kept.ordersOk hnodup hrows k
  cases hp : s.priceItems.find? k with
  | none =>
    have hzero : totalHeld s k = 0 := hs.kept.missing k hp
    omega
  | some p =>
    obtain ⟨hactive, hused⟩ := hs.kept.used_eq k p hp
    exact ⟨p, rfl, hactive, hs.price_fits hp, hused ▸ hle⟩

end Effects

/-! ## Cancellations -/

section Programs

variable {R : Regime schema} {E : Err → Prop} {s : Db}

/-- The release of the quota of one order: it clears the flag where it is set. -/
theorem wp_release_alone (hlax : R.Lax) {env : Env} {id : Uuid} {o row : Order} (hok : OrderOk o)
    (hrow : s.orders.find? id = some row) (hflag : row.quantitiesReserved = o.quantitiesReserved)
    (hnow : row.updatedAt = env.now) (htotal : int64 row.totalAmount = true)
    (hcounted : Counted s.priceItems (held o)) {Q : Unit → Db → Prop}
    (hQ : ∀ orders priceItems,
      s.orders.Written orders id (some { row with quantitiesReserved := false }) →
      Lowered s.priceItems priceItems (held o) → Q () { s with orders, priceItems }) :
    wp R (whenever (o.contract?.isSome ∧ o.quantitiesReserved = true) <|
      releaseOrderQuantities env id o) Q E s := by
  rw [wp_whenever]
  constructor
  · rintro ⟨hcontract, hreserved⟩
    obtain ⟨c, hc⟩ := Option.isSome_iff_exists.mp hcontract
    have hheld : ∀ k, held o k = demand c (o.items.map OrderItem.pair) k :=
      held_of_reserved hreserved hc
    rw [releaseOrderQuantities, hc, whenSome, wp_bind]
    refine wp_release_counted hlax (pair_pos hok.quantity_pos) (fun k => hheld k ▸ hcounted k)
      fun t hlowered => ?_
    refine wp_update_fits (s := { s with priceItems := t }) hlax hrow (by exact htotal) rfl ?_
    have hset : row.set { quantitiesReserved := some false } env.now =
        { row with quantitiesReserved := false } := by
      rw [← hnow]
      rfl
    rw [hset]
    exact hQ _ t (s.orders.written_put id _) (hlowered.congr hheld)
  · intro hnot
    have hfalse : o.quantitiesReserved = false := by
      cases h : o.quantitiesReserved with
      | false => rfl
      | true => exact absurd ⟨(hok.reserved_iff.mp h).1, h⟩ hnot
    refine hQ s.orders s.priceItems (Table.written_self ?_) ?_
    · rw [hrow, Option.some.injEq]
      have hflag := hflag.trans hfalse
      cases row
      cases hflag
      rfl
    · exact (lowered_zero _).congr fun k => held_of_not_reserved hfalse k

/-- One order that is locked is cancelled. -/
theorem wp_cancelLocked_alone (hlax : R.Lax) (hs : Consistent s) {env : Env} {reason : String}
    (hreason : reason.length ≤ 500) (author : Option Uuid) {x : Uuid × Order}
    (ho : s.orders.find? x.1 = some x.2) {Q : Unit → Db → Prop}
    (hQ : ∀ orders priceItems, Cancels env author (fun _ => reason) [x] s
      { s with orders, priceItems } → Q () { s with orders, priceItems }) :
    wp R (cancelLocked env reason author x) Q E s := by
  obtain ⟨id, o⟩ := x
  dsimp only at ho
  have htotal := hs.total_fits ho
  have hfits : fits 500 (some reason) = true := decide_eq_true hreason
  have hcounted : Counted s.priceItems (held o) := by
    have hcounted : Counted s.priceItems (heldBy [(id, o)]) :=
      hs.counted (List.nodup_singleton id) (by simpa using ho)
    intro k hk
    have hsingle : heldBy [(id, o)] k = held o k := by simp [heldBy]
    have h := hcounted k (hsingle ▸ hk)
    rwa [hsingle] at h
  rw [cancelLocked, wp_bind]
  refine wp_update_fits hlax ho (by exact htotal) rfl ?_
  have hwritten := s.orders.written_put id (some (o.set { status := some .cancelled } env.now))
  rw [wp_bind]
  refine wp_release_alone (s := s.put (.order id) _) hlax (hs.kept.ordersOk id o ho)
    hwritten.find?_self rfl rfl (by exact htotal) hcounted fun orders priceItems hput hlowered => ?_
  have hput := hwritten.trans hput
  rw [wp_bind]
  refine wp_update_fits hlax hput.find?_self (by exact htotal) hfits ?_
  have hput := hput.put (some (({ (o.set { status := some .cancelled } env.now) with
    quantitiesReserved := false } : Order).set { cancellationReason := some reason } env.now))
  refine wp_log_fits hlax hput.find?_self hfits ?_
  have hput := hput.put (some (cancelledBy env author reason o))
  refine hQ _ _ ⟨⟨fun y hy => ?_, fun k hk => ?_⟩, hlowered.congr fun k => by simp [heldBy]⟩
  · rw [List.mem_singleton.mp hy]
    exact hput.find?_self
  · exact hput.find?_ne (by simpa using hk)

/-- A batch of stored orders is cancelled. -/
theorem wp_cancelBatch_alone (hlax : R.Lax) (hs : Consistent s) {env : Env} {reason : String}
    (hreason : reason.length ≤ 500) (author : Option Uuid) {xs : List (Uuid × Order)}
    (hnodup : (xs.map Prod.fst).Nodup)
    (hxs : ∀ x ∈ xs, s.orders.find? x.1 = some x.2) {Q : Unit → Db → Prop}
    (hQ : ∀ orders priceItems, Cancels env author (fun _ => reason) xs s
      { s with orders, priceItems } → Q () { s with orders, priceItems }) :
    wp R (forEach xs (cancelLocked env reason author)) Q E s := by
  refine wp_loop (fun done (s' : Db) => ∃ orders priceItems, s' = { s with orders, priceItems } ∧
      Cancels env author (fun _ => reason) done s s')
    ⟨s.orders, s.priceItems, rfl, cancels_nil _ _ _ _⟩ ?_ ?_
  · rintro done x todo _ hdone ⟨orders, priceItems, rfl, hcancels⟩
    have hx : x ∈ xs := hdone ▸ List.mem_append_right _ List.mem_cons_self
    have hkeys := hnodup
    rw [← hdone, List.map_append, List.map_cons] at hkeys
    obtain ⟨hdoneKeys, -, hdisjoint⟩ := List.nodup_append.mp hkeys
    have hfresh : ∀ y ∈ done, y.1 ≠ x.1 := fun y hy =>
      hdisjoint y.1 (List.mem_map.mpr ⟨y, hy, rfl⟩) x.1 List.mem_cons_self
    have hdoneRows : ∀ y ∈ done, s.orders.find? y.1 = some y.2 := fun y hy =>
      hxs y (hdone ▸ List.mem_append_left _ hy)
    have hstays : orders.find? x.1 = some x.2 := by
      have hothers := hcancels.orders.others x.1 fun hmem => by
        obtain ⟨y, hy, heq⟩ := List.mem_map.mp hmem
        exact hfresh y hy heq
      exact hothers.trans (hxs x hx)
    refine wp_cancelLocked_alone hlax (hcancels.consistent hs hdoneKeys hdoneRows) hreason author
      hstays fun orders' priceItems' hone => ⟨orders', priceItems', rfl, ?_⟩
    refine hcancels.trans hone fun y hy => ?_
    rw [List.map_singleton, List.mem_singleton]
    exact hfresh y hy
  · rintro _ ⟨orders, priceItems, rfl, hcancels⟩
    exact hQ orders priceItems hcancels

/-- An order that is new or assigned may be cancelled. -/
theorem wp_ensureCancellable {id : Uuid} {o : Order} (ho : Founded o)
    (hopen : o.status = .new ∨ o.status = .assigned) {Q : Unit → Db → Prop} (hQ : Q () s) :
    wp R (ensureStatusTransitionAllowed id o .cancelled) Q E s := by
  have hallowed : OrderStatus.cancelled ∈ getAllowedStatuses o.saleType o.status := by
    rcases hopen with h | h
    · rw [h]
      cases o.saleType <;> decide
    · have hsale := (ho.underway ((isUnderway_iff o).mpr (.inl h))).1
      rw [h, hsale]
      decide
  rw [ensureStatusTransitionAllowed, wp_whenever]
  refine ⟨fun _ => ?_, fun _ => hQ⟩
  rw [wp_bind, wp_raiseIf]
  refine ⟨fun h => absurd h.2 (by decide), fun _ => ?_⟩
  rw [wp_bind, wp_raiseIf]
  refine ⟨fun h => absurd h.2 (by decide), fun _ => ?_⟩
  rw [wp_raiseIf]
  exact ⟨fun h => absurd hallowed h, fun _ => hQ⟩

/-- `update_status` cancels one order as a batch does, but for the author. -/
theorem wp_updateStatus_cancels (hlax : R.Lax) (hs : Consistent s) {env : Env} {reason : String}
    (hreason : reason.length ≤ 500) (hne : reason ≠ "") {x : Uuid × Order}
    (ho : s.orders.find? x.1 = some x.2) (hopen : x.2.status = .new ∨ x.2.status = .assigned)
    {Q : Unit → Db → Prop}
    (hQ : ∀ orders priceItems, Cancels env none (fun _ => reason) [x] s
      { s with orders, priceItems } → Q () { s with orders, priceItems }) :
    wp R (updateStatus env x.1 .cancelled [] none (some reason)) Q E s := by
  have hcancel := wp_cancelLocked_alone (R := R) (E := E) hlax hs hreason none ho hQ
  have hrow : s.get (.order x.1) = some x.2 := ho
  rw [updateStatus, wp_bind, getOrderLocked, wp_bind, wp_locked]
  change wp R (orRaise (s.get (.order x.1)) _) _ E s
  rw [hrow, orRaise, wp_ret, wp_bind, wp_raiseIf]
  refine ⟨fun h => absurd h Bool.false_ne_true, fun _ => ?_⟩
  rw [wp_bind]
  refine wp_ensureCancellable (hs.founded x.1 x.2 ho) hopen ?_
  rw [cancelLocked, wp_bind] at hcancel
  rw [wp_bind]
  refine wp_mono _ hcancel (fun _ s₁ h₁ => ?_) fun _ he => he
  rw [wp_bind, wp_whenever]
  refine ⟨fun h => absurd h.2 (by decide), fun _ => ?_⟩
  have hcond : (OrderStatus.cancelled = .cancelled ∧ x.2.status ≠ .cancelled ∧
      x.2.contract?.isSome ∧ x.2.quantitiesReserved = true ∧
        x.2.status ∉ [OrderStatus.delivered, .pickupCompleted]) ↔
      (x.2.contract?.isSome ∧ x.2.quantitiesReserved = true) := by
    rcases hopen with h | h <;> simp [h]
  have hrelease : whenever (S := schema) (OrderStatus.cancelled = .cancelled ∧
      x.2.status ≠ .cancelled ∧ x.2.contract?.isSome ∧ x.2.quantitiesReserved = true ∧
        x.2.status ∉ [OrderStatus.delivered, .pickupCompleted])
      (releaseOrderQuantities env x.1 x.2) =
      whenever (x.2.contract?.isSome ∧ x.2.quantitiesReserved = true)
        (releaseOrderQuantities env x.1 x.2) := if_congr hcond rfl rfl
  rw [wp_bind] at h₁
  rw [wp_bind, hrelease]
  refine wp_mono _ h₁ (fun _ s₂ h₂ => ?_) fun _ he => he
  rw [wp_bind] at h₂
  rw [wp_bind, wp_whenever]
  constructor
  · exact fun _ => h₂
  · exact fun h => absurd ⟨rfl, decide_eq_true hne⟩ h

end Programs

end Munavvar.Cancellations
