import Munavvar.ContractEffects

/-!
# Conservation of contract quotas

In every serial run the counter of a price item is what the orders hold of it.
A change moves both by the same amount, and since what the orders hold is never
negative, no release takes more than the counter has and none misses its row.
-/

namespace Munavvar.QuotaConservation

open Munavvar.KeyedTable
open Munavvar.Transaction
open Munavvar.Transaction.Prog
open Munavvar.Database
open Munavvar.Statements
open Munavvar.OrderQueries
open Munavvar.Quota
open Munavvar.Operations
open Munavvar.OrderChanges
open Munavvar.ContractEffects

/-! ## What the orders hold -/

/-- The pieces of a product on the reserved orders of a contract. -/
def reservedQuantity (contractId productId : Uuid) (s : Db) : ℤ :=
  ((s.orders.select fun _ o => o.contractId = some contractId && o.quantitiesReserved).map fun o =>
    ((o.items.filter fun i => i.productId = productId).map OrderItem.quantity).sum).sum

theorem amount_pairs (items : List OrderItem) (p : Uuid) :
    Bag.amount (items.map OrderItem.pair) p =
      ((items.filter fun i => i.productId = p).map OrderItem.quantity).sum := by
  induction items with
  | nil => rfl
  | cons i items ih =>
    rw [List.map_cons, Bag.amount_cons, ih, List.filter_cons]
    by_cases hp : i.productId = p
    · rw [if_pos (by exact hp), if_pos (decide_eq_true hp), List.map_cons, List.sum_cons]
      rfl
    · rw [if_neg (by exact hp), if_neg (by simpa using hp), zero_add]

/-- An order of another contract holds nothing of a price item. -/
theorem held_of_other {o : Order} {c p : Uuid} (h : o.contractId ≠ some c) :
    held o (c, p) = 0 := by
  unfold held
  split
  · cases hcontract : o.contract? with
    | none => rfl
    | some c' =>
      have hne : c ≠ c' := by
        intro heq
        rw [Order.contract?] at hcontract
        split at hcontract
        · exact h (hcontract.trans (congrArg some heq.symm))
        · cases hcontract
      exact if_neg hne
  · rfl

/-- Summed over all orders, what is held is what is on the reserved lines. -/
theorem total_held {s : Db} (hs : OrdersOk s) (c p : Uuid) :
    (s.orders.total fun _ o => held o (c, p)) = reservedQuantity c p s := by
  have hselect := Table.sum_select (t := s.orders)
    (p := fun _ o => o.contractId = some c && o.quantitiesReserved) (g := fun o => held o (c, p)) ?_
  · rw [← hselect, reservedQuantity]
    congr 1
    refine List.map_congr_left fun o ho => ?_
    obtain ⟨id, hfind, hmatch⟩ := (Table.mem_select_iff _ _ _).mp ho
    rw [Bool.and_eq_true] at hmatch
    rw [held_of_contractId (hs id o hfind) (of_decide_eq_true hmatch.1), if_pos hmatch.2, demand,
      if_pos rfl, amount_pairs]
  · intro id o _ hnot
    rw [Bool.and_eq_false_iff] at hnot
    rcases hnot with h | h
    · exact held_of_other (of_decide_eq_false h)
    · exact held_of_not_reserved h _

theorem total_held_nonneg {s : Db} (hs : OrdersOk s) (k : Uuid × Uuid) :
    0 ≤ s.orders.total fun _ o => held o k := by
  have hrows : ∀ r ∈ ([] : List (Uuid × Order)), s.orders.find? r.1 = some r.2 := by simp
  have hnodup : (([] : List (Uuid × Order)).map Prod.fst).Nodup := List.nodup_nil
  exact Table.sum_le_total (g := fun _ o => held o k)
    (fun id o ho => held_nonneg (hs id o ho) k) hnodup hrows

/-! ## The invariant -/

/-- Counters agree with the orders. -/
structure QuotaKept (s : Db) : Prop where
  /-- The orders are in order. -/
  ordersOk : OrdersOk s
  /-- A price item is active and counts what is held of it. -/
  used_eq : ∀ k p, s.priceItems.find? k = some p →
    p.isActive = true ∧ p.quantityUsed = s.orders.total fun _ o => held o k
  /-- Nothing is held of a price item that does not exist. -/
  missing : ∀ k, s.priceItems.find? k = none → (s.orders.total fun _ o => held o k) = 0

section Kept

variable {R : Regime schema} {r : Request} {s s' : Db}

/-- Price items are removed only while nothing is counted on them. -/
def RemovesUnused (R : Regime schema) : Prop :=
  R.Exact ∨ ∀ c p (row : PriceItem), R.assumes (.priceItem c p) (.delete row.id) (some row) →
    row.quantityUsed ≤ 0

theorem QuotaKept.change (h : QuotaKept s) (hremoves : RemovesUnused R) (hchange : Change R r s s') :
    QuotaKept s' := by
  have hs' := hchange.ordersOk h.ordersOk
  cases hchange.quotaStep with
  | moved change hquota htotal =>
    refine ⟨hs', fun k p' hp' => ?_, fun k hk => ?_⟩
    · have hnonneg := total_held_nonneg hs' k
      rw [hquota.find_eq k] at hp'
      obtain ⟨p, hp, rfl⟩ := Option.map_eq_some_iff.mp hp'
      obtain ⟨hactive, hused⟩ := h.used_eq k p hp
      refine ⟨hactive, ?_⟩
      rw [htotal k] at hnonneg ⊢
      dsimp only
      rw [shifted_of_le (by omega), hused]
    · have hnonneg := total_held_nonneg hs' k
      rw [hquota.find_eq k, Option.map_eq_none_iff] at hk
      rw [htotal k, h.missing k hk, zero_add] at hnonneg ⊢
      rcases hnonneg.lt_or_eq with hpos | hzero
      · obtain ⟨p, hp, -⟩ := hquota.within k hpos
        rw [hk] at hp
        cases hp
      · exact hzero.symm
  | set c p row hwritten hrow hquantity horders =>
    refine ⟨hs', fun k p' hp' => ?_, fun k hk => ?_⟩
    · rw [horders]
      rw [hwritten k] at hp'
      split at hp'
      · next hk =>
        subst hk
        cases hp'
        cases hold : s.priceItems.find? (c, p) with
        | none =>
          rw [hold] at hrow
          exact ⟨hrow.2, hrow.1.trans (h.missing _ hold).symm⟩
        | some old =>
          rw [hold] at hrow
          obtain ⟨hactive, hused⟩ := h.used_eq _ old hold
          rw [hrow.1]
          exact ⟨hactive, hused⟩
      · exact h.used_eq k p' hp'
    · rw [horders]
      rw [hwritten k] at hk
      split at hk
      · cases hk
      · exact h.missing k hk
  | removed c p row hrow hwritten hused hassumed horders =>
    refine ⟨hs', fun k p' hp' => ?_, fun k hk => ?_⟩
    · rw [horders]
      rw [hwritten k] at hp'
      split at hp'
      · cases hp'
      · exact h.used_eq k p' hp'
    · rw [horders]
      rw [hwritten k] at hk
      split at hk
      · next heq =>
        subst heq
        have hnonneg := total_held_nonneg h.ordersOk (c, p)
        have hused : row.quantityUsed ≤ 0 := by
          rcases hremoves with hexact | hremoves
          · exact hused hexact
          · exact hremoves c p row hassumed
        rw [(h.used_eq _ row hrow).2] at hused
        omega
      · exact h.missing k hk

theorem QuotaKept.changes (h : QuotaKept s) (hremoves : RemovesUnused R)
    (hchanges : Changes R r s s') : QuotaKept s' :=
  hchanges.induction h fun _ _ h₁ hchange => h₁.change hremoves hchange

/-- What the orders hold can be released without clipping and without a missing row. -/
theorem QuotaKept.releasable (h : QuotaKept s)
    (hassert : ∀ k st old, NoClip k st old → R.asserts k st old) :
    Releasable R (fun e => e.isQuotaLeak = false) s := by
  intro c qs hpos hle
  refine releases_of_covered hassert ⟨hpos, fun x hx => ?_⟩
  have hx := le_demand (c := c) hpos hx
  have hle := hle (c, x.1)
  have hx₀ := hpos x ‹_›
  cases hfind : s.priceItems.find? (c, x.1) with
  | none =>
    have hnone := h.missing _ hfind
    omega
  | some p =>
    obtain ⟨hactive, hused⟩ := h.used_eq _ p hfind
    exact ⟨p, rfl, hactive, hused ▸ hle⟩

/-- Every request keeps the counters in agreement, and its releases are covered. -/
theorem program_quotaKept (ht : Tame R fun e => e.isQuotaLeak = false) (hremoves : RemovesUnused R)
    (hassert : ∀ k st old, NoClip k st old → R.asserts k st old) (h : QuotaKept s) (r : Request) :
    wp R (program r) (fun _ s' => QuotaKept s') (fun e => e.isQuotaLeak = false) s := by
  have hchanges := program_changes (r := r) ht h.ordersOk
    fun s₁ h₁ => (h.changes hremoves h₁).releasable hassert
  exact wp_mono _ hchanges (fun _ _ h₁ => h.changes hremoves h₁) fun _ he => he

/-- Alone, every release takes what a counter has. -/
theorem program_quotaKept_alone (h : QuotaKept s) (r : Request) :
    wp (Regime.serialAsserting NoClip) (program r) (fun _ s' => QuotaKept s')
      (fun e => e.isQuotaLeak = false) s :=
  program_quotaKept tame_noClip (.inl (Regime.serialAsserting_exact (S := schema) NoClip))
    (fun _ _ _ hassert => hassert) h r

end Kept

theorem fresh_quotaKept (s : Db) : QuotaKept (fresh s) where
  ordersOk id o ho := absurd ho (by simp [fresh])
  used_eq k p hp := absurd hp (by simp [fresh])
  missing k _ := rfl

theorem after_quotaKept (s : Db) (rs : List Request) : QuotaKept (after rs (fresh s)) :=
  serveAll_induction (fresh_quotaKept s) (fun r _ h => serve_of_wp (program_quotaKept_alone h r) h) rs

/-! ## Conservation -/

/-- The counters of a database and what the next request finds there. -/
structure QuotaConserved (s : Db) : Prop where
  /-- A counter is the number of pieces on the reserved orders. -/
  used_eq : ∀ c p row, s.priceItems.find? (c, p) = some row →
    row.quantityUsed = reservedQuantity c p s
  /-- A cancelled order is not reserved. -/
  cancelled : ∀ id o, s.orders.find? id = some o → o.status = .cancelled →
    o.quantitiesReserved = false
  /-- No release that a request executes stops at zero. -/
  noClip : ∀ r, ∀ x ∈ (program r).executed s, NoClip x.key x.stmt x.old
  /-- No release misses its row. -/
  noLeak : ∀ r c p, (program r).run s ≠ .error (.decrementNoRows c p)

/-- Quotas are conserved in every serial run. -/
theorem quota_conserved (s : Db) (rs : List Request) : QuotaConserved (after rs (fresh s)) := by
  have h := after_quotaKept s rs
  refine ⟨fun c p row hrow => ?_, fun id o ho hstatus => ?_, fun r => ?_, fun r c p hrun => ?_⟩
  · rw [(h.used_eq _ row hrow).2, total_held h.ordersOk]
  · cases hflag : o.quantitiesReserved with
    | false => rfl
    | true => exact absurd hstatus ((h.ordersOk id o ho).reserved_iff.mp hflag).2
  · exact ((wp_serialAsserting_iff _ _ _ _).mp (program_quotaKept_alone h r)).2
  · have hend := ((wp_serialAsserting_iff _ _ _ _).mp (program_quotaKept_alone h r)).1
    rw [hrun] at hend
    cases hend

end Munavvar.QuotaConservation
