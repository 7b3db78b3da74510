import Munavvar.Discipline
import Mathlib.Logic.Relation

/-!
# Lock order

Transactions that wait for each other in a cycle never go on. If every lock that
is waited for stands above all locks that its transaction holds, waiting leads
upwards and there is no such cycle. Locks without a rank are left out of
consideration, and so are statements that make a row of their own.
-/

namespace Munavvar.LockOrder

open Munavvar.Transaction
open Munavvar.Transaction.Prog
open Munavvar.ReadCommitted
open Munavvar.Discipline

variable {S : Schema} {Op α : Type} {makes : (k : S.Key) → S.Stmt k → Bool} {rank : S.Key → Option ℕ}

/-- The row whose lock the next step has to have. A statement that makes its row
waits for nobody. -/
def request (makes : (k : S.Key) → S.Stmt k → Bool) : Prog S Unit → Option S.Key
  | .lock k _ => some k
  | .write k st _ => if makes k st then none else some k
  | _ => none

/-- A transaction waits for a row with a rank that another one holds. -/
def Waits (makes : (k : S.Key) → S.Stmt k → Bool) (rank : S.Key → Option ℕ) (σ : Sys S Op)
    (t u : Tid) : Prop :=
  ∃ x k, σ.txns t = some x ∧ request makes x.prog = some k ∧ (rank k).isSome = true ∧
    σ.holder k = some u ∧ u ≠ t

/-- A lock is held already, or it is above all that are held. -/
def Rises (rank : S.Key → Option ℕ) (H : S.Key → Prop) (k : S.Key) : Prop :=
  ∀ n, rank k = some n → H k ∨ ∀ j m, H j → rank j = some m → m < n

/-- Locks are waited for in the order of their ranks, but for some. -/
def ordered (makes : (k : S.Key) → S.Stmt k → Bool) (rank : S.Key → Option ℕ)
    (exempt : S.Key → Prop) : Discipline S where
  rows _ _ := True
  locks H k := exempt k ∨ Rises rank H k
  writes H k st := makes k st = true ∨ exempt k ∨ Rises rank H k

theorem rises_of_held {H : S.Key → Prop} {k : S.Key} (h : H k) : Rises rank H k :=
  fun _ _ => .inl h

theorem rises_of_unranked {H : S.Key → Prop} {k : S.Key} (h : rank k = none) : Rises rank H k := by
  intro n hn
  rw [h] at hn
  cases hn

/-- What is requested is in order or exempt. -/
theorem request_ordered {d : S.Static} {exempt : S.Key → Prop} {p : Prog S Unit}
    {A : Unit → (S.Key → Prop) → Prop} {H : S.Key → Prop}
    (h : Obeys (ordered makes rank exempt) d p A H) {k : S.Key} (hk : request makes p = some k) :
    exempt k ∨ Rises rank H k := by
  cases p with
  | lock j next =>
    cases hk
    exact h.1
  | write j st next =>
    rw [request] at hk
    split at hk
    · cases hk
    · next hmakes =>
      cases hk
      exact h.1.resolve_left hmakes
  | _ => cases hk

section Cycles

variable {d : S.Static} {exempt : Op → S.Key → Prop} {σ : Sys S Op}

/-- The rank of the lock that a transaction requests and does not hold. -/
def Asks (makes : (k : S.Key) → S.Stmt k → Bool) (rank : S.Key → Option ℕ) (σ : Sys S Op) (t : Tid)
    (n : ℕ) : Prop :=
  ∃ x k, σ.txns t = some x ∧ request makes x.prog = some k ∧ rank k = some n ∧ σ.holder k ≠ some t

/-- Whoever waits asks for a lock. -/
theorem Waits.asks {t u : Tid} (h : Waits makes rank σ t u) : ∃ n, Asks makes rank σ t n := by
  obtain ⟨x, k, hx, hk, hranked, hholder, hne⟩ := h
  obtain ⟨n, hn⟩ := Option.isSome_iff_exists.mp hranked
  refine ⟨n, x, k, hx, hk, hn, ?_⟩
  rw [hholder]
  exact fun h => hne (Option.some.inj h)

/-- Whoever is waited for asks for a higher lock, if for any. -/
theorem Waits.lt (h : Disciplined (fun op => ordered makes rank (exempt op)) d σ)
    (hexempt : ∀ t x k, σ.txns t = some x → request makes x.prog = some k → exempt x.op k →
      Rises rank (fun j => σ.holder j = some t) k)
    {t u : Tid} {n m : ℕ} (hwaits : Waits makes rank σ t u) (ht : Asks makes rank σ t n)
    (hu : Asks makes rank σ u m) : n < m := by
  obtain ⟨x, k, hx, hk, -, hholder, -⟩ := hwaits
  obtain ⟨x', k', hx', hk', hn, -⟩ := ht
  cases hx.symm.trans hx'
  cases hk.symm.trans hk'
  obtain ⟨y, j, hy, hj, hm, hfree⟩ := hu
  have hrises : Rises rank (fun j => σ.holder j = some u) j := by
    rcases request_ordered (h.obeys u y hy) hj with he | hrises
    · exact hexempt u y j hy hj he
    · exact hrises
  rcases hrises m hm with hheld | habove
  · exact absurd hheld hfree
  · exact habove k n hholder hn

/-- No cycle of transactions waits, if those that are exempt ask in order. -/
theorem no_cycle (h : Disciplined (fun op => ordered makes rank (exempt op)) d σ)
    (hexempt : ∀ t x k, σ.txns t = some x → request makes x.prog = some k → exempt x.op k →
      Rises rank (fun j => σ.holder j = some t) k) (t : Tid) :
    ¬ Relation.TransGen (Waits makes rank σ) t t := by
  have hpath : ∀ u, Relation.TransGen (Waits makes rank σ) t u → ∀ n m, Asks makes rank σ t n →
      Asks makes rank σ u m → n < m := by
    intro u hu
    induction hu with
    | single hwaits => exact fun n m ht hu => hwaits.lt h hexempt ht hu
    | tail _ hwaits ih =>
      intro n m ht hv
      obtain ⟨i, hi⟩ := hwaits.asks
      have hlt := ih n i ht hi
      have hlt' := hwaits.lt h hexempt hi hv
      omega
  intro hcycle
  obtain ⟨u, hwaits, -⟩ := Relation.TransGen.head'_iff.mp hcycle
  obtain ⟨n, hn⟩ := hwaits.asks
  exact Nat.lt_irrefl n (hpath t hcycle n n hn hn)

end Cycles

end Munavvar.LockOrder
