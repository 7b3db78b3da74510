import Munavvar.ContractEffects
import Munavvar.ReadCommitted

/-!
# The limit of a contract quota

The table has no constraint that keeps a counter within its quota. Orders look
at the locked row before they raise a counter; an edit of the price list looks
at a row that it has not locked. In an interleaving whose edits find the counter
within the new quota, no quota is exceeded; without that one can be.
-/

namespace Munavvar.QuotaLimit

open Munavvar.KeyedTable
open Munavvar.Transaction
open Munavvar.Transaction.Prog
open Munavvar.ReadCommitted
open Munavvar.Database
open Munavvar.Statements
open Munavvar.Quota
open Munavvar.Operations
open Munavvar.OrderChanges
open Munavvar.ContractEffects

/-- The guard of `set_price_item`, on the row that its `UPDATE` overwrites. -/
def editInOrder : (k : Key) → Stmt k → Option (Row k) → Bool
  | .priceItem _ _, .update _ _ quantity, old =>
    old.all fun p : PriceItem => ¬ (0 < quantity ∧ quantity < p.quantityUsed)
  | _, _, _ => true

/-- A counter stays between zero and its quota. -/
structure WithinLimit (s : Db) : Prop where
  /-- The orders are in order. -/
  ordersOk : OrdersOk s
  /-- No counter is negative. -/
  nonneg : ∀ k p, s.priceItems.find? k = some p → 0 ≤ p.quantityUsed
  /-- No quota is exceeded; zero means no limit. -/
  limit : ∀ k p, s.priceItems.find? k = some p → p.quantity = 0 ∨ p.quantityUsed ≤ p.quantity

section Kept

variable {R : Regime schema} {r : Request} {s s' : Db}

/-- A counter that is not raised does not grow and does not become negative. -/
theorem shifted_bounds {used change : ℤ} (hused : 0 ≤ used) (hchange : change ≤ 0) :
    0 ≤ shifted used change ∧ shifted used change ≤ used := by
  unfold shifted released
  split_ifs <;> omega

theorem WithinLimit.change (h : WithinLimit s)
    (hassumes : ∀ c p id price quantity old,
      R.assumes (.priceItem c p) (.update id price quantity) (some old) →
      ¬ (0 < quantity ∧ quantity < old.quantityUsed))
    (hchange : Change R r s s') : WithinLimit s' := by
  have hs' := hchange.ordersOk h.ordersOk
  have hold : ∀ k p, s.priceItems.find? k = some p →
      0 ≤ p.quantityUsed ∧ (p.quantity = 0 ∨ p.quantityUsed ≤ p.quantity) :=
    fun k p hp => ⟨h.nonneg k p hp, h.limit k p hp⟩
  suffices hnew : ∀ k p, s'.priceItems.find? k = some p →
      0 ≤ p.quantityUsed ∧ (p.quantity = 0 ∨ p.quantityUsed ≤ p.quantity) from
    ⟨hs', fun k p hp => (hnew k p hp).1, fun k p hp => (hnew k p hp).2⟩
  intro k p' hp'
  cases hchange.quotaStep with
  | moved change hquota htotal =>
    rw [hquota.find_eq k] at hp'
    obtain ⟨p, hp, rfl⟩ := Option.map_eq_some_iff.mp hp'
    obtain ⟨hnonneg, hlimit⟩ := hold k p hp
    dsimp only
    by_cases hchange : change k ≤ 0
    · have hbounds := shifted_bounds hnonneg hchange
      omega
    · obtain ⟨p₁, hp₁, -, hwithin⟩ := hquota.within k (not_le.mp hchange)
      cases hp.symm.trans hp₁
      rw [shifted, if_neg hchange]
      omega
  | set c p row hwritten hrow hquantity horders =>
    rw [hwritten k] at hp'
    split at hp'
    · cases hp'
      cases hfind : s.priceItems.find? (c, p) with
      | none =>
        rw [hfind] at hrow
        have hzero : p'.quantityUsed = 0 := hrow.1
        omega
      | some old =>
        rw [hfind] at hrow
        obtain ⟨hrow, hassumed⟩ := hrow
        have hguard := hassumes _ _ _ _ _ _ hassumed
        have hused : p'.quantityUsed = old.quantityUsed := by rw [hrow]
        have hnonneg := h.nonneg _ old hfind
        omega
    · exact hold k p' hp'
  | removed c p row hrow hwritten hused hassumed horders =>
    rw [hwritten k] at hp'
    split at hp'
    · cases hp'
    · exact hold k p' hp'

end Kept

/-- As one commit whose edit finds the counter in order, a request keeps the limits. -/
theorem program_withinLimit {s : Db} (h : WithinLimit s) (r : Request) :
    wp (Regime.concurrentAssuming fun k st old => editInOrder k st old = true) (program r)
      (fun _ s' => WithinLimit s') (fun _ => True) s := by
  have hlax : Regime.Lax (S := schema)
      (Regime.concurrentAssuming fun k st old => editInOrder k st old = true) :=
    Regime.concurrentAssuming_lax _
  have hchanges := program_changes (r := r)
    (Tame.concurrentAssuming fun k st old => editInOrder k st old = true) h.ordersOk
    fun s₁ _ => releasable_of_lax hlax s₁
  refine wp_mono _ hchanges (fun _ s' h' => ?_) fun _ he => he
  refine h'.induction h fun s₁ s₂ h₁ hchange => h₁.change ?_ hchange
  intro c p id price quantity old hassumed
  exact of_decide_eq_true hassumed

theorem fresh_withinLimit (s : Db) : WithinLimit (fresh s) where
  ordersOk id o ho := absurd ho (by simp [fresh])
  nonneg k p hp := absurd hp (by simp [fresh])
  limit k p hp := absurd hp (by simp [fresh])

/-- The quota of every price item is kept or unlimited. -/
def QuotaWithinLimit (s : Db) : Prop :=
  ∀ c p row, s.priceItems.find? (c, p) = some row → row.quantity = 0 ∨ row.quantityUsed ≤ row.quantity

/-- In every interleaving whose edits of the price list find the counter within
the new quota, no quota is exceeded. -/
theorem quota_not_exceeded (s : Db) {σ : Sys schema Request}
    (h : Reach program (fun k st old => editInOrder k st old = true) (Sys.init (fresh s)) σ) :
    QuotaWithinLimit σ.db := by
  have hlimit := h.invariant (I := WithinLimit) (fun r _ hs => program_withinLimit hs r)
    (fresh_withinLimit s)
  exact fun c p row hrow => hlimit.limit (c, p) row hrow

/-! ## Two schedules -/

/-- A request that is served without interruption. -/
def alone (t n : ℕ) (op : Operation) : List (ReadCommitted.Action Request) :=
  [.start t (sampleRequest t t op)] ++ List.replicate n (.step t) ++ [.commit t]

/-- An order of some coffee by contract. -/
def coffee (quantity : ℤ) (h : 0 < quantity) : Operation :=
  .createOrder 7 ⟨[⟨23, quantity, h⟩], .contract, 5, false, none⟩

/-- Ten pieces may be ordered and five are; the limit is then lowered to eight. -/
def orderlyActions : List (ReadCommitted.Action Request) :=
  alone 0 4 (.setPriceItem 31 23 60 10) ++ alone 1 12 (coffee 5 five_pieces) ++
  alone 2 3 (.setPriceItem 31 23 60 8) ++ alone 3 12 (coffee 3 three_pieces)

theorem quota_not_exceeded_sample :
    ∃ σ, orderlyActions.foldlM (Sys.execIf program editInOrder) (Sys.init (fresh sampleDb)) = some σ ∧
      σ.db.priceItems.find? (31, 23) = some ⟨10000, 60, 8, 8, true⟩ ∧ QuotaWithinLimit σ.db := by
  have heval : (orderlyActions.foldlM (Sys.execIf program editInOrder)
      (Sys.init (fresh sampleDb))).map (fun σ => σ.db.priceItems.find? (31, 23)) =
        some (some ⟨10000, 60, 8, 8, true⟩) := by decide +kernel
  cases hrun : orderlyActions.foldlM (Sys.execIf program editInOrder) (Sys.init (fresh sampleDb)) with
  | none => exact absurd (hrun ▸ heval) (by simp)
  | some σ =>
    rw [hrun, Option.map_some, Option.some.injEq] at heval
    exact ⟨σ, rfl, heval, quota_not_exceeded sampleDb (Reach.of_checked _ hrun)⟩

/-- The limit is lowered to five; three more pieces are ordered between the `SELECT` of the edit
and its `UPDATE`. -/
def overtakenActions : List (ReadCommitted.Action Request) :=
  alone 0 4 (.setPriceItem 31 23 60 10) ++ alone 1 12 (coffee 5 five_pieces) ++
  [.start 2 (sampleRequest 2 2 (.setPriceItem 31 23 60 5)), .step 2] ++
  alone 3 12 (coffee 3 three_pieces) ++ [.step 2, .step 2, .commit 2]

theorem quota_exceeded :
    ¬ ∀ (s : Db) (σ : Sys schema Request),
      Reach program (fun _ _ _ => True) (Sys.init (fresh s)) σ → QuotaWithinLimit σ.db := by
  intro hclaim
  have heval : (overtakenActions.foldlM (Sys.exec program) (Sys.init (fresh sampleDb))).map
      (fun σ => σ.db.priceItems.find? (31, 23)) =
        some (some ⟨10000, 60, 5, 8, true⟩) := by decide +kernel
  cases hrun : overtakenActions.foldlM (Sys.exec program) (Sys.init (fresh sampleDb)) with
  | none => exact absurd (hrun ▸ heval) (by simp)
  | some σ =>
    rw [hrun, Option.map_some, Option.some.injEq] at heval
    have hlimit := hclaim sampleDb σ (Reach.of_actions _ hrun) 31 23 _ heval
    exact absurd hlimit (by decide)

end Munavvar.QuotaLimit
