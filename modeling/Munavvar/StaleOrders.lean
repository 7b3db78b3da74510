import Munavvar.Cancellations

/-!
# Expiry of stale orders

The job cancels the new orders and the assigned orders that are older than their
cutoffs, at most 500 of each. A run leaves no stale order behind, and the next one
finds none, exactly where no more than 500 of each were stale.
-/

namespace Munavvar.StaleOrders

open Munavvar.KeyedTable
open Munavvar.Transaction
open Munavvar.Transaction.Prog
open Munavvar.Database
open Munavvar.Statements
open Munavvar.StockLedger
open Munavvar.OrderQueries
open Munavvar.OrderService
open Munavvar.Operations
open Munavvar.ContractEffects
open Munavvar.Cancellations

/-! ## The job -/

/-- The ages in hours that the endpoint of the job admits. -/
structure ExpireStaleQuery where
  /-- Age of a new order. -/
  maxAgeHours : ℤ
  /-- Age of an assigned order. -/
  assignedMaxAgeHours : ℤ
  /-- `ge=1, le=720`. -/
  maxAgeHours_range : 1 ≤ maxAgeHours ∧ maxAgeHours ≤ 720
  /-- `ge=1, le=720`. -/
  assignedMaxAgeHours_range : 1 ≤ assignedMaxAgeHours ∧ assignedMaxAgeHours ≤ 720

/-- The number of rows that `get_stale_orders` returns at most. -/
def batchLimit : ℕ := 500

/-- The microseconds of an hour. -/
def hour : ℤ := 3600000000

/-- A new order created before its cutoff. -/
def isStaleNew (env : Env) (q : ExpireStaleQuery) (o : Order) : Bool :=
  o.status = .new && o.createdAt < env.now - q.maxAgeHours * hour && o.isActive

/-- An assigned order last updated before its cutoff. -/
def isStaleAssigned (env : Env) (q : ExpireStaleQuery) (o : Order) : Bool :=
  o.status = .assigned && o.updatedAt < env.now - q.assignedMaxAgeHours * hour && o.isActive

/-- The reason given for a new order. -/
def newReason (q : ExpireStaleQuery) : String :=
  s!"Авто-отмена: заказ не обработан за {q.maxAgeHours}ч"

/-- The reason given for an assigned order. -/
def assignedReason (q : ExpireStaleQuery) : String :=
  s!"Авто-отмена: заказ не доставлен за {q.assignedMaxAgeHours}ч"

/-- The reason given for an order. -/
def reasonOf (q : ExpireStaleQuery) (o : Order) : String :=
  if o.status = .new then newReason q else assignedReason q

/-- `expire_stale_orders` with the number of cancelled orders that it returns. -/
def cancelStaleOrders (env : Env) (q : ExpireStaleQuery) (adminId : Option Uuid) : Uow ℕ := do
  let new ← getStaleOrders (env.now - q.maxAgeHours * hour) .new false
  forEach new <| cancelLocked env (newReason q) adminId
  let assigned ← getStaleOrders (env.now - q.assignedMaxAgeHours * hour) .assigned true
  forEach assigned <| cancelLocked env (assignedReason q) adminId
  ret (new.length + assigned.length)

/-- Without its number it is the operation that requests ask for. -/
theorem cancelStaleOrders_operation (env : Env) (q : ExpireStaleQuery) (adminId : Option Uuid) :
    (do
      let _ ← cancelStaleOrders env q adminId
      ret ()) = expireStaleOrders env q.maxAgeHours q.assignedMaxAgeHours adminId := by
  rw [cancelStaleOrders, expireStaleOrders]
  simp only [bind_bind]
  refine congrArg _ (funext fun new => congrArg _ (funext fun _ => congrArg _ (funext fun ys => ?_)))
  exact bind_ret _

/-! ## Reasons -/

/-- An admitted age has at most three digits. -/
theorem length_hours {hours : ℤ} (h : 1 ≤ hours ∧ hours ≤ 720) : (toString hours).length ≤ 3 := by
  obtain ⟨n, rfl⟩ := Int.eq_ofNat_of_zero_le (by omega : 0 ≤ hours)
  have hdigits : (Nat.toDigits 10 n).length ≤ 3 :=
    (Nat.length_toDigits_le_iff (by decide) (by decide)).mpr (by omega)
  have hrepr : toString (n : ℤ) = n.repr := rfl
  rw [hrepr, ← String.length_toList, Nat.toList_repr]
  exact hdigits

theorem newReason_length (q : ExpireStaleQuery) : (newReason q).length ≤ 500 := by
  have hhours := length_hours q.maxAgeHours_range
  have hprefix : "Авто-отмена: заказ не обработан за ".length = 35 := rfl
  have hsuffix : "ч".length = 1 := rfl
  change ("Авто-отмена: заказ не обработан за " ++ toString q.maxAgeHours ++ "ч").length ≤ 500
  simp only [String.length_append]
  omega

theorem assignedReason_length (q : ExpireStaleQuery) : (assignedReason q).length ≤ 500 := by
  have hhours := length_hours q.assignedMaxAgeHours_range
  have hprefix : "Авто-отмена: заказ не доставлен за ".length = 35 := rfl
  have hsuffix : "ч".length = 1 := rfl
  change ("Авто-отмена: заказ не доставлен за " ++ toString q.assignedMaxAgeHours ++ "ч").length ≤ 500
  simp only [String.length_append]
  omega

theorem reason_ne_empty (q : ExpireStaleQuery) (o : Order) : reasonOf q o ≠ "" := by
  have hlength : 0 < (reasonOf q o).length := by
    rw [reasonOf]
    split
    · change 0 < ("Авто-отмена: заказ не обработан за " ++ toString q.maxAgeHours ++ "ч").length
      rw [String.length_append]
      exact Nat.add_pos_right _ Nat.one_pos
    · change 0 < ("Авто-отмена: заказ не доставлен за " ++ toString q.assignedMaxAgeHours ++
        "ч").length
      rw [String.length_append]
      exact Nat.add_pos_right _ Nat.one_pos
  intro hempty
  rw [hempty] at hlength
  exact absurd hlength (by decide)

theorem reasonOf_length (q : ExpireStaleQuery) (o : Order) : (reasonOf q o).length ≤ 500 := by
  rw [reasonOf]
  split
  · exact newReason_length q
  · exact assignedReason_length q

/-! ## One run -/

section Run

variable {env : Env} {q : ExpireStaleQuery} {adminId : Option Uuid} {s s₁ : Db}

theorem isStaleNew_status {o : Order} (h : isStaleNew env q o = true) : o.status = .new := by
  rw [isStaleNew, Bool.and_eq_true, Bool.and_eq_true] at h
  exact of_decide_eq_true h.1.1

theorem isStaleAssigned_status {o : Order} (h : isStaleAssigned env q o = true) :
    o.status = .assigned := by
  rw [isStaleAssigned, Bool.and_eq_true, Bool.and_eq_true] at h
  exact of_decide_eq_true h.1.1

/-- What a run does: the first orders of each kind are cancelled. -/
structure Batches (env : Env) (q : ExpireStaleQuery) (adminId : Option Uuid) (s : Db)
    (assigned : List (Uuid × Order)) (n : ℕ) (s' : Db) : Prop where
  /-- The assigned orders that are stale, in some order. -/
  perm : assigned.Perm (matching (isStaleAssigned env q) s)
  /-- The number that is returned. -/
  count_eq : n = ((matching (isStaleNew env q) s).take batchLimit).length +
    (assigned.take batchLimit).length
  /-- What is cancelled. -/
  cancels : Cancels env adminId (reasonOf q)
    ((matching (isStaleNew env q) s).take batchLimit ++ assigned.take batchLimit) s s'
  /-- Other tables stay. -/
  others : s' = { s with orders := s'.orders, priceItems := s'.priceItems }

/-- Alone, the job cancels its two batches and ends well. -/
theorem wp_cancelStaleOrders (hs : Consistent s) (env : Env) (q : ExpireStaleQuery)
    (adminId : Option Uuid) {E : Err → Prop} : wp Regime.serial (cancelStaleOrders env q adminId)
      (fun n s' => ∃ assigned, Batches env q adminId s assigned n s') E s := by
  have hexact : Regime.Exact (S := schema) Regime.serial := Regime.serialAsserting_exact _
  have hskips : ¬ (Regime.serial (S := schema)).skips := fun h => h
  let xs := (matching (isStaleNew env q) s).take batchLimit
  have hxs : ∀ x ∈ xs, s.orders.find? x.1 = some x.2 ∧ x.2.status = .new := by
    intro x hx
    obtain ⟨hfind, hstale⟩ := mem_matching.mp (List.mem_of_mem_take hx)
    exact ⟨hfind, isStaleNew_status hstale⟩
  have hnodup : (xs.map Prod.fst).Nodup :=
    ((List.take_sublist _ _).map Prod.fst).nodup (matching_nodup _ _)
  have hrows : ∀ x ∈ xs, s.orders.find? x.1 = some x.2 := fun x hx => (hxs x hx).1
  rw [cancelStaleOrders, wp_bind, getStaleOrders]
  refine wp_lockMatching_alone hexact hskips ?_
  rw [wp_bind]
  refine wp_cancelBatch_alone Regime.serial_lax hs (newReason_length q) adminId hnodup hrows
    fun orders priceItems hfirst => ?_
  have hperm : (matching (isStaleAssigned env q) { s with orders, priceItems }).Perm
      (matching (isStaleAssigned env q) s) := by
    refine hfirst.matching_perm (fun o ho hcancelled => ?_) fun x hx => ⟨hrows x hx, ?_⟩
    · cases (isStaleAssigned_status ho).symm.trans hcancelled
    · rw [← Bool.not_eq_true]
      intro hassigned
      cases (isStaleAssigned_status hassigned).symm.trans (hxs x hx).2
  have hs₁ := hfirst.consistent hs hnodup hrows
  rw [wp_bind, getStaleOrders]
  refine wp_lockMatching_alone hexact hskips ?_
  let assigned := matching (isStaleAssigned env q) { s with orders, priceItems }
  have hys : ∀ y ∈ assigned.take batchLimit, orders.find? y.1 = some y.2 ∧
      y.2.status = .assigned := by
    intro y hy
    obtain ⟨hfind, hstale⟩ := mem_matching.mp (List.mem_of_mem_take hy)
    exact ⟨hfind, isStaleAssigned_status hstale⟩
  rw [wp_bind]
  refine wp_cancelBatch_alone (s := { s with orders, priceItems }) Regime.serial_lax hs₁
    (assignedReason_length q) adminId
    (((List.take_sublist _ _).map Prod.fst).nodup (matching_nodup _ _))
    (fun y hy => (hys y hy).1) fun orders' priceItems' hsecond => ⟨assigned, hperm, rfl, ?_, rfl⟩
  -- a new order that was cancelled in the first batch is not assigned in the second
  have hfresh : ∀ x ∈ xs, x.1 ∉ (assigned.take batchLimit).map Prod.fst := by
    intro x hx hmem
    obtain ⟨y, hy, heq⟩ := List.mem_map.mp hmem
    obtain ⟨hfind, hstatus⟩ := hys y hy
    rw [heq, hfirst.orders.batch x hx, Option.some.injEq] at hfind
    rw [← hfind] at hstatus
    cases hstatus
  have hnew : Cancels env adminId (reasonOf q) xs s { s with orders, priceItems } :=
    hfirst.congr fun x hx => if_pos (hxs x hx).2
  refine hnew.trans (hsecond.congr fun y hy => if_neg ?_) hfresh
  rw [(hys y hy).2]
  decide

end Run

/-! ## Completeness and idempotence -/

/-- A run that cancels some stale orders, leaves none behind and has nothing left to do. -/
structure Expires (env : Env) (q : ExpireStaleQuery) (adminId : Option Uuid) (s : Db)
    (xs : List (Uuid × Order)) (s' : Db) : Prop where
  /-- The job returns the number of cancelled orders. -/
  returns : (cancelStaleOrders env q adminId).run s = .ok (xs.length, s')
  /-- Only stale orders are cancelled. -/
  stale : ∀ x ∈ xs, s.orders.find? x.1 = some x.2 ∧
    (isStaleNew env q x.2 = true ∨ isStaleAssigned env q x.2 = true)
  /-- No stale order remains. -/
  none_left : ∀ id o, s'.orders.find? id = some o →
    isStaleNew env q o = false ∧ isStaleAssigned env q o = false
  /-- The cancelled orders get their rows and their log entries and release their quota. -/
  cancels : Cancels env adminId (reasonOf q) xs s s'
  /-- Each would get the same, with an entry of no author, by a cancellation of its own. -/
  single : ∀ x ∈ xs, ∃ s₁,
    (updateStatus env x.1 .cancelled [] none (some (reasonOf q x.2))).run s = .ok ((), s₁) ∧
      Cancels env none (reasonOf q) [x] s s₁
  /-- Other tables stay. -/
  others : s' = { s with orders := s'.orders, priceItems := s'.priceItems }
  /-- A second run cancels nothing. -/
  again : (cancelStaleOrders env q adminId).run s' = .ok (0, s')

section Completeness

variable {env : Env} {q : ExpireStaleQuery} {adminId : Option Uuid} {s s' : Db}

/-- One more than fits into a batch stays out of it. -/
theorem exists_left_out {xs : List (Uuid × Order)} (hnodup : (xs.map Prod.fst).Nodup) {n : ℕ}
    (hn : n < xs.length) : ∃ x ∈ xs, x.1 ∉ (xs.take n).map Prod.fst := by
  have hsplit : (xs.take n).map Prod.fst ++ (xs.drop n).map Prod.fst = xs.map Prod.fst := by
    rw [← List.map_append, List.take_append_drop]
  rw [← hsplit] at hnodup
  obtain ⟨-, -, hdisjoint⟩ := List.nodup_append.mp hnodup
  have hmem : xs[n] ∈ xs.drop n := by
    rw [List.mem_drop_iff_getElem]
    exact ⟨0, by simpa using hn, by simp⟩
  refine ⟨xs[n], List.mem_of_mem_drop hmem, fun h => ?_⟩
  exact hdisjoint _ h _ (List.mem_map.mpr ⟨xs[n], hmem, rfl⟩) rfl

/-- An order that is cancelled by itself gets what it gets in a batch. -/
theorem single_cancels (hs : Consistent s) (env : Env) (q : ExpireStaleQuery) {x : Uuid × Order}
    (ho : s.orders.find? x.1 = some x.2) (hopen : x.2.status = .new ∨ x.2.status = .assigned) :
    ∃ s₁, (updateStatus env x.1 .cancelled [] none (some (reasonOf q x.2))).run s = .ok ((), s₁) ∧
      Cancels env none (reasonOf q) [x] s s₁ := by
  have hwp : wp Regime.serial (updateStatus env x.1 .cancelled [] none (some (reasonOf q x.2)))
      (fun _ s₁ => Cancels env none (reasonOf q) [x] s s₁) (fun _ => False) s := by
    refine wp_updateStatus_cancels Regime.serial_lax hs (reasonOf_length q x.2)
      (reason_ne_empty q x.2) ho hopen fun orders priceItems hcancels => ?_
    refine hcancels.congr fun y hy => ?_
    rw [List.mem_singleton.mp hy]
  obtain ⟨_, s₁, hrun, hcancels⟩ := run_of_wp hwp
  exact ⟨s₁, hrun, hcancels⟩

/-- Where no order is stale, the job does nothing. -/
theorem run_idle (adminId : Option Uuid) (hnone : ∀ id o, s.orders.find? id = some o →
      isStaleNew env q o = false ∧ isStaleAssigned env q o = false) :
    (cancelStaleOrders env q adminId).run s = .ok (0, s) := by
  have hnew : matching (isStaleNew env q) s = [] :=
    matching_eq_nil fun id o ho => (hnone id o ho).1
  have hassigned : matching (isStaleAssigned env q) s = [] :=
    matching_eq_nil fun id o ho => (hnone id o ho).2
  have hwp : wp Regime.serial (cancelStaleOrders env q adminId) (fun n s' => n = 0 ∧ s' = s)
      (fun _ => False) s := by
    have hexact : Regime.Exact (S := schema) Regime.serial := Regime.serialAsserting_exact _
    rw [cancelStaleOrders, wp_bind, getStaleOrders]
    refine wp_lockMatching_none hexact (fun h => h) hnew ?_
    rw [wp_bind, forEach, wp_ret, wp_bind, getStaleOrders]
    refine wp_lockMatching_none hexact (fun h => h) hassigned ?_
    rw [wp_bind, forEach, wp_ret, wp_ret]
    exact ⟨rfl, rfl⟩
  obtain ⟨n, s', hrun, rfl, rfl⟩ := run_of_wp hwp
  exact hrun

/-- After the cancellation of all stale orders none is stale. -/
theorem none_left_of_cancels {xs : List (Uuid × Order)}
    (hcancels : Cancels env adminId (reasonOf q) xs s s')
    (hall : ∀ x, s.orders.find? x.1 = some x.2 →
      (isStaleNew env q x.2 = true ∨ isStaleAssigned env q x.2 = true) → x ∈ xs) :
    ∀ id o, s'.orders.find? id = some o →
      isStaleNew env q o = false ∧ isStaleAssigned env q o = false := by
  intro id o ho
  -- a stale order would be listed, and what is listed is cancelled
  have hstatus : isStaleNew env q o = true ∨ isStaleAssigned env q o = true →
      o.status = .cancelled := by
    intro hstale
    rcases hcancels.find?_cases ho with hold | ⟨x, -, -, rfl⟩
    · have hbatch := hcancels.orders.batch (id, o) (hall (id, o) hold hstale)
      rw [ho, Option.some.injEq] at hbatch
      exact congrArg Order.status hbatch
    · rfl
  constructor
  · rw [← Bool.not_eq_true]
    intro hstale
    cases (isStaleNew_status hstale).symm.trans (hstatus (.inl hstale))
  · rw [← Bool.not_eq_true]
    intro hstale
    cases (isStaleAssigned_status hstale).symm.trans (hstatus (.inr hstale))

/-- Where a run is complete, its batches were large enough. -/
theorem Batches.few {assigned : List (Uuid × Order)} {n : ℕ}
    (h : Batches env q adminId s assigned n s') (hnone : ∀ id o, s'.orders.find? id = some o →
      isStaleNew env q o = false ∧ isStaleAssigned env q o = false) :
    (matching (isStaleNew env q) s).length ≤ batchLimit ∧ assigned.length ≤ batchLimit := by
  have hnew : ∀ x ∈ matching (isStaleNew env q) s, s.orders.find? x.1 = some x.2 ∧
      isStaleNew env q x.2 = true := fun x hx => mem_matching.mp hx
  have hassigned : ∀ x ∈ assigned, s.orders.find? x.1 = some x.2 ∧
      isStaleAssigned env q x.2 = true := fun x hx => mem_matching.mp (h.perm.mem_iff.mp hx)
  -- the kinds are told apart by the status
  have hapart : ∀ x ∈ matching (isStaleNew env q) s, ∀ y ∈ assigned, x.1 ≠ y.1 := by
    intro x hx y hy heq
    obtain ⟨hxrow, hxstale⟩ := hnew x hx
    obtain ⟨hyrow, hystale⟩ := hassigned y hy
    rw [heq, hyrow, Option.some.injEq] at hxrow
    have hstatus := isStaleNew_status hxstale
    rw [← hxrow, isStaleAssigned_status hystale] at hstatus
    cases hstatus
  have hstays : ∀ k, k ∉ ((matching (isStaleNew env q) s).take batchLimit).map Prod.fst →
      k ∉ (assigned.take batchLimit).map Prod.fst → s'.orders.find? k = s.orders.find? k := by
    intro k hk hk'
    refine h.cancels.orders.others k ?_
    rw [List.map_append, List.mem_append]
    exact fun hmem => hmem.elim hk hk'
  constructor
  · by_contra hmany
    obtain ⟨x, hx, hout⟩ := exists_left_out (matching_nodup _ _) (not_le.mp hmany)
    obtain ⟨hrow, hstale⟩ := hnew x hx
    have hrow' := (hstays x.1 hout fun hmem => by
      obtain ⟨y, hy, heq⟩ := List.mem_map.mp hmem
      exact hapart x hx y (List.mem_of_mem_take hy) heq.symm).trans hrow
    rw [(hnone x.1 x.2 hrow').1] at hstale
    cases hstale
  · by_contra hmany
    have hnodup : (assigned.map Prod.fst).Nodup :=
      (h.perm.map Prod.fst).nodup_iff.mpr (matching_nodup _ _)
    obtain ⟨x, hx, hout⟩ := exists_left_out hnodup (not_le.mp hmany)
    obtain ⟨hrow, hstale⟩ := hassigned x hx
    have hrow' := (hstays x.1 (fun hmem => by
      obtain ⟨y, hy, heq⟩ := List.mem_map.mp hmem
      exact hapart y (List.mem_of_mem_take hy) x hx heq) hout).trans hrow
    rw [(hnone x.1 x.2 hrow').2] at hstale
    cases hstale

/-- Where its batches are large enough, a run is complete. -/
theorem Batches.expires (hs : Consistent s) {assigned : List (Uuid × Order)} {n : ℕ}
    (h : Batches env q adminId s assigned n s')
    (hrun : (cancelStaleOrders env q adminId).run s = .ok (n, s'))
    (hnew : (matching (isStaleNew env q) s).length ≤ batchLimit)
    (hassigned : assigned.length ≤ batchLimit) :
    Expires env q adminId s (matching (isStaleNew env q) s ++ assigned) s' := by
  have hcount := h.count_eq
  have hcancels := h.cancels
  rw [List.take_of_length_le hnew, List.take_of_length_le hassigned] at hcount hcancels
  have hmem : ∀ x, x ∈ matching (isStaleNew env q) s ++ assigned ↔ s.orders.find? x.1 = some x.2 ∧
      (isStaleNew env q x.2 = true ∨ isStaleAssigned env q x.2 = true) := by
    intro x
    rw [List.mem_append, h.perm.mem_iff, mem_matching, mem_matching, and_or_left]
  have hnone := none_left_of_cancels hcancels fun x hrow hstale => (hmem x).mpr ⟨hrow, hstale⟩
  constructor
  · rw [hrun, hcount, List.length_append]
  · exact fun x hx => (hmem x).mp hx
  · exact hnone
  · exact hcancels
  · intro x hx
    obtain ⟨hrow, hstale⟩ := (hmem x).mp hx
    exact single_cancels hs env q hrow (hstale.imp isStaleNew_status isStaleAssigned_status)
  · exact h.others
  · exact run_idle adminId hnone

/-- In a consistent database a run is complete exactly where its batches are large enough. -/
theorem expires_iff (hs : Consistent s) (env : Env) (q : ExpireStaleQuery) (adminId : Option Uuid) :
    (∃ xs s', Expires env q adminId s xs s') ↔
      (matching (isStaleNew env q) s).length ≤ batchLimit ∧
        (matching (isStaleAssigned env q) s).length ≤ batchLimit := by
  obtain ⟨n, s', hrun, assigned, hbatches⟩ :=
    run_of_wp (wp_cancelStaleOrders hs env q adminId)
  rw [← hbatches.perm.length_eq]
  constructor
  · rintro ⟨xs, s'', hexpires⟩
    have hboth := hexpires.returns.symm.trans hrun
    rw [Except.ok.injEq, Prod.mk.injEq] at hboth
    exact hbatches.few (hboth.2 ▸ hexpires.none_left)
  · rintro ⟨hnew, hassigned⟩
    exact ⟨_, s', hbatches.expires hs hrun hnew hassigned⟩

end Completeness

/-- The job expires all stale orders, and a second run finds none, exactly where at
most 500 new and at most 500 assigned orders are stale. -/
theorem stale_expiry_complete_iff (s : Db) (rs : List Request) (env : Env) (q : ExpireStaleQuery)
    (adminId : Option Uuid) :
    (∃ xs s', Expires env q adminId (after rs (fresh s)) xs s') ↔
      (matching (isStaleNew env q) (after rs (fresh s))).length ≤ batchLimit ∧
        (matching (isStaleAssigned env q) (after rs (fresh s))).length ≤ batchLimit :=
  expires_iff (after_consistent s rs) env q adminId

/-! ## A crowd of stale orders -/

/-- An order of some coffee for cash, as it is inserted. -/
def crowdOrder : Order :=
  { clientId := 7, clientInventoryId := 5, courierId := none, paymentMethod := .cash,
    status := .new, totalAmount := 70, capitalizationApplied := false, saleType := .delivery,
    warehouseId := none, contractId := none, quantitiesReserved := false,
    cancellationReason := none, notes := none, isActive := true, createdAt := 0, updatedAt := 0,
    items := [], statusLogs := [] }

/-- The order as it is stored. -/
def crowdRow : Order :=
  { crowdOrder with items := [⟨23, 1, 70⟩], statusLogs := [⟨none, .new, some 7, none⟩] }

/-- The `n`-th client of a crowd orders. -/
def crowdRequest (n : ℕ) : Request :=
  sampleRequest n 0 (.createOrder 7 ⟨[⟨23, 1, one_piece⟩], .cash, 5, false, none⟩)

/-- The identifier of the `n`-th order. -/
def crowdId (n : ℕ) : Uuid := 10000 * (n + 1) + 100 * 0 + 0

theorem crowdId_injective : Function.Injective crowdId := by
  intro i j hij
  have hij : 10000 * (i + 1) + 100 * 0 + 0 = 10000 * (j + 1) + 100 * 0 + 0 := hij
  omega

/-- The sample company with some orders. -/
def crowdDb (t : Table Uuid Order) : Db := { fresh sampleDb with orders := t }

/-- Everything but the orders is fixed, so the request comes down to what it inserts. -/
theorem run_crowdRequest (n : ℕ) (t : Table Uuid Order) :
    (program (crowdRequest n)).run (crowdDb t) = (do
      insertOrder (crowdId n) crowdOrder [⟨23, 1, 70⟩]
      issue (.order (crowdId n)) (.logTransition ⟨none, .new, some 7, none⟩)).run (crowdDb t) :=
  rfl

/-- A statement that succeeds hands its row on. -/
theorem run_write_ok {α : Type} {k : Key} {st : Stmt k} {next : Uow α} {s : Db}
    {row : Option (Row k)} (h : exec k st (s.get k) = .ok row) :
    Prog.run (S := schema) (.write k st next) s = Prog.run next (s.put k row) := by
  have h : schema.exec k st (schema.get s k) = .ok row := h
  rw [Prog.run, h]

/-- An order under a new identifier is stored. -/
theorem serve_crowdRequest (n : ℕ) {t : Table Uuid Order} (hfresh : t.find? (crowdId n) = none) :
    ∃ t', serve (program (crowdRequest n)) (crowdDb t) = crowdDb t' ∧
      t.Written t' (crowdId n) (some crowdRow) := by
  let listed : Order := { crowdOrder with items := [⟨23, 1, 70⟩] }
  let t₁ := t.put (crowdId n) (some crowdOrder)
  let t₂ := t₁.put (crowdId n) (some listed)
  have hinsert : exec (.order (crowdId n)) (.insert crowdOrder)
      ((crowdDb t).get (.order (crowdId n))) = .ok (some crowdOrder) := by
    change OrderStmt.exec _ (t.find? (crowdId n)) = _
    rw [hfresh]
    rfl
  have hlist : exec (.order (crowdId n)) (.addItems [⟨23, 1, 70⟩])
      ((crowdDb t₁).get (.order (crowdId n))) = .ok (some listed) := by
    change OrderStmt.exec _ (t₁.find? (crowdId n)) = _
    rw [Table.find?_put_self]
    rfl
  have hlog : exec (.order (crowdId n)) (.logTransition ⟨none, .new, some 7, none⟩)
      ((crowdDb t₂).get (.order (crowdId n))) = .ok (some crowdRow) := by
    change OrderStmt.exec _ (t₂.find? (crowdId n)) = _
    rw [Table.find?_put_self]
    rfl
  have hrun : (program (crowdRequest n)).run (crowdDb t) =
      .ok ((), crowdDb (t₂.put (crowdId n) (some crowdRow))) := by
    rw [run_crowdRequest]
    exact (run_write_ok hinsert).trans ((run_write_ok hlist).trans (run_write_ok hlog))
  refine ⟨t₂.put (crowdId n) (some crowdRow), ?_, ?_⟩
  · rw [serve, hrun]
  · exact ((t.written_put _ _).put _).put _

/-- After a crowd its orders are stored. -/
theorem after_crowd (n : ℕ) :
    ∃ t, after ((List.range n).map crowdRequest) (fresh sampleDb) = crowdDb t ∧
      ∀ i, t.find? (crowdId i) = if i < n then some crowdRow else none := by
  induction n with
  | zero => exact ⟨.empty, rfl, fun _ => rfl⟩
  | succ n ih =>
    obtain ⟨t, hafter, hrows⟩ := ih
    have hfresh : t.find? (crowdId n) = none := by
      rw [hrows n, if_neg (lt_irrefl n)]
    obtain ⟨t', hserve, hwritten⟩ := serve_crowdRequest n hfresh
    refine ⟨t', ?_, fun i => ?_⟩
    · rw [List.range_succ, List.map_append, after, serveAll_append]
      have hafter : serveAll program ((List.range n).map crowdRequest) (fresh sampleDb) =
          crowdDb t := hafter
      rw [hafter]
      exact hserve
    · by_cases hi : i = n
      · rw [hi, hwritten.find?_self, if_pos (Nat.lt_succ_self n)]
      · have hid : crowdId i ≠ crowdId n := fun h => hi (crowdId_injective h)
        rw [hwritten.find?_ne hid, hrows i]
        by_cases hlt : i < n
        · rw [if_pos hlt, if_pos (by omega)]
        · rw [if_neg hlt, if_neg (by omega)]

/-- Two days and an hour after the crowd. -/
def dayAfter : Env := (sampleRequest 1000 (49 * hour) .runExpireJob).env

/-- The default ages. -/
def defaultQuery : ExpireStaleQuery := ⟨48, 72, by decide, by decide⟩

/-- A crowd of 501 leaves at least one stale order behind. -/
theorem stale_orders_left : ¬ ∀ (s : Db) (rs : List Request) (env : Env) (q : ExpireStaleQuery)
    (adminId : Option Uuid), ∃ xs s', Expires env q adminId (after rs (fresh s)) xs s' := by
  intro hclaim
  obtain ⟨t, hafter, hrows⟩ := after_crowd 501
  have hs := after_consistent sampleDb ((List.range 501).map crowdRequest)
  have hfew := ((expires_iff hs dayAfter defaultQuery none).mp (hclaim _ _ _ _ _)).1
  rw [hafter] at hfew
  let crowd := (List.range 501).map fun i => (crowdId i, crowdRow)
  have hnodup : crowd.Nodup := List.nodup_range.map fun i j hij =>
    crowdId_injective (congrArg Prod.fst hij)
  have hstale : isStaleNew dayAfter defaultQuery crowdRow = true := by decide
  have hsub : crowd ⊆ matching (isStaleNew dayAfter defaultQuery) (crowdDb t) := by
    intro x hx
    obtain ⟨i, hi, rfl⟩ := List.mem_map.mp hx
    refine mem_matching.mpr ⟨?_, hstale⟩
    exact (hrows i).trans (if_pos (List.mem_range.mp hi))
  have hmany := (hnodup.subperm hsub).length_le
  have hlength : crowd.length = 501 := by rw [List.length_map, List.length_range]
  rw [batchLimit] at hfew
  omega

end Munavvar.StaleOrders
