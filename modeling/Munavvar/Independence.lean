import Munavvar.Transaction

/-!
# Programs and what they do not see

A program is independent of a change of the state when its plain reads give the
same with and without the change and no row that it locks or writes is touched by
it. Such a program runs on the changed state as on the original one.
-/

namespace Munavvar.Independence

open Munavvar.Transaction
open Munavvar.Transaction.Prog

variable {S : Schema} {α β γ : Type}

/-- A row that a change of the state leaves alone. -/
structure Apart (φ : S.State → S.State) (k : S.Key) : Prop where
  /-- The row is the same. -/
  get_eq : ∀ s, S.get (φ s) k = S.get s k
  /-- It may be written before or after the change. -/
  put_eq : ∀ s r, S.put (φ s) k r = φ (S.put s k r)

/-- Whatever it reads, the program sees nothing of the change. -/
def Ignores (φ : S.State → S.State) : Prog S α → Prop
  | ret _ => True
  | raise _ => True
  | query next => ∀ v, next (φ v) = next v ∧ Ignores φ (next v)
  | lock k next => Apart φ k ∧ ∀ r, Ignores φ (next r)
  | tryLock k next => Apart φ k ∧ ∀ r, Ignores φ (next r)
  | write k _ next => Apart φ k ∧ Ignores φ next

section Rules

variable {φ : S.State → S.State}

theorem ignores_ret (a : α) : Ignores φ (ret a : Prog S α) := trivial

theorem ignores_ask {f : S.State → α} (h : ∀ v, f (φ v) = f v) : Ignores φ (ask f) :=
  fun v => ⟨congrArg ret (h v), trivial⟩

theorem ignores_locked {k : S.Key} (h : Apart φ k) : Ignores φ (locked k) :=
  ⟨h, fun _ => trivial⟩

theorem ignores_unlessLocked {k : S.Key} (h : Apart φ k) : Ignores φ (unlessLocked k) :=
  ⟨h, fun _ => trivial⟩

theorem ignores_execute {k : S.Key} (h : Apart φ k) (st : S.Stmt k) : Ignores φ (execute k st) :=
  ⟨h, trivial⟩

theorem ignores_raiseIf (c : Prop) [Decidable c] (e : S.Err) :
    Ignores φ (raiseIf c e : Prog S Unit) := by
  unfold raiseIf
  split <;> exact trivial

theorem ignores_bind' {p : Prog S α} {f : α → Prog S β} (hp : Ignores φ p)
    (hf : ∀ a, Ignores φ (f a)) : Ignores φ (p.bind f) := by
  induction p with
  | ret a => exact hf a
  | raise e => exact trivial
  | query next ih =>
    intro v
    obtain ⟨hsame, hnext⟩ := hp v
    refine ⟨?_, ih v hnext⟩
    change (next (φ v)).bind f = (next v).bind f
    rw [hsame]
  | lock k next ih => exact ⟨hp.1, fun r => ih r (hp.2 r)⟩
  | tryLock k next ih => exact ⟨hp.1, fun r => ih r (hp.2 r)⟩
  | write k st next ih => exact ⟨hp.1, ih hp.2⟩

theorem ignores_bind {p : Prog S α} {f : α → Prog S β} (hp : Ignores φ p)
    (hf : ∀ a, Ignores φ (f a)) : Ignores φ (p >>= f) := ignores_bind' hp hf

theorem ignores_forEach {f : β → Prog S Unit} {bs : List β} (hf : ∀ b, Ignores φ (f b)) :
    Ignores φ (forEach bs f) := by
  induction bs with
  | nil => exact trivial
  | cons b bs ih => exact ignores_bind' (hf b) fun _ => ih

theorem ignores_collect {f : β → Prog S γ} {bs : List β} (hf : ∀ b, Ignores φ (f b)) :
    Ignores φ (collect bs f) := by
  induction bs with
  | nil => exact trivial
  | cons b bs ih => exact ignores_bind' (hf b) fun _ => ignores_bind' ih fun _ => trivial

/-- On the changed state the program ends as on the original one, and the change stays. -/
theorem run_ignores {p : Prog S α} (h : Ignores φ p) (s : S.State) :
    p.run (φ s) = (p.run s).map fun x => (x.1, φ x.2) := by
  induction p generalizing s with
  | ret a => rfl
  | raise e => rfl
  | query next ih =>
    obtain ⟨hsame, hnext⟩ := h s
    rw [run, run, hsame]
    exact ih s hnext s
  | lock k next ih =>
    rw [run, run, h.1.get_eq]
    exact ih _ (h.2 _) s
  | tryLock k next ih =>
    rw [run, run, h.1.get_eq]
    exact ih _ (h.2 _) s
  | write k st next ih =>
    rw [run, run, h.1.get_eq]
    cases S.exec k st (S.get s k) with
    | ok r =>
      dsimp only
      rw [h.1.put_eq]
      exact ih h.2 _
    | error e => rfl

end Rules

end Munavvar.Independence
