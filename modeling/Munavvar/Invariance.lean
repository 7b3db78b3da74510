import Munavvar.Transaction

/-!
# Invariants of programs

A program keeps an invariant if every run that starts in a state with the
invariant ends in one, whatever its plain reads return. Programs that are put
together from such parts keep it too, and parts need not be single statements:
an invariant that a statement breaks and its trigger restores is kept by both
together.
-/

namespace Munavvar.Invariance

open Munavvar.Transaction
open Munavvar.Transaction.Prog

variable {S : Schema} {α β γ : Type} {R : Regime S} {I J : S.State → Prop}

/-- A program keeps an invariant; an exception ends it without a new state. -/
def Keeps (R : Regime S) (I : S.State → Prop) (p : Prog S α) : Prop :=
  ∀ s, I s → wp R p (fun _ s' => I s') (fun _ => True) s

theorem keeps_ret (a : α) : Keeps R I (ret a : Prog S α) := fun _ hs => hs

theorem keeps_raise (e : S.Err) : Keeps R I (raise e : Prog S α) := fun _ _ => trivial

/-- One part after another. -/
theorem keeps_bind {p : Prog S α} {f : α → Prog S β} (hp : Keeps R I p)
    (hf : ∀ a, Keeps R I (f a)) : Keeps R I (p >>= f) := by
  intro s hs
  rw [wp_bind]
  exact wp_mono p (hp s hs) (fun a s' hs' => hf a s' hs') fun _ he => he

/-- Statements that keep the invariant each by itself. -/
theorem keeps_within {P : (k : S.Key) → S.Stmt k → Prop} {X : S.Err → Prop} (hlax : R.Lax)
    (hstep : ∀ s k st r, P k st → I s → S.exec k st (S.get s k) = .ok r → I (S.put s k r))
    {p : Prog S α} (hp : Within P X p) : Keeps R I p := by
  intro s hs
  exact wp_within hp (fun k st old _ => hlax k st old) (fun _ _ => trivial)
    (fun _ _ _ _ _ _ => trivial) hstep hs

theorem keeps_ask (f : S.State → α) : Keeps R I (ask f) := fun _ hs _ _ => hs

theorem keeps_locked (k : S.Key) : Keeps R I (locked k : Prog S _) := fun _ hs => hs

theorem keeps_raiseIf (c : Prop) [Decidable c] (e : S.Err) :
    Keeps R I (raiseIf c e : Prog S Unit) := by
  intro s hs
  rw [wp_raiseIf]
  exact ⟨fun _ => trivial, fun _ => hs⟩

theorem keeps_orRaise (o : Option α) (e : S.Err) : Keeps R I (orRaise o e : Prog S α) := by
  intro s hs
  rw [wp_orRaise]
  exact ⟨fun _ => trivial, fun _ _ => hs⟩

theorem keeps_fromExcept (x : Except S.Err α) : Keeps R I (fromExcept x : Prog S α) := by
  intro s hs
  rw [wp_fromExcept]
  exact ⟨fun _ _ => trivial, fun _ _ => hs⟩

theorem keeps_whenever (c : Prop) [Decidable c] {p : Prog S Unit} (hp : c → Keeps R I p) :
    Keeps R I (whenever c p) := by
  intro s hs
  rw [wp_whenever]
  exact ⟨fun hc => hp hc s hs, fun _ => hs⟩

theorem keeps_whenSome (o : Option α) {f : α → Prog S Unit}
    (hf : ∀ a, o = some a → Keeps R I (f a)) : Keeps R I (whenSome o f) := by
  intro s hs
  rw [wp_whenSome]
  exact ⟨fun a ha => hf a ha s hs, fun _ => hs⟩

/-- A loop whose rounds keep the invariant keeps it. -/
theorem keeps_forEach {bs : List β} {f : β → Prog S Unit} (hf : ∀ b, Keeps R I (f b)) :
    Keeps R I (forEach bs f) := by
  intro s hs
  exact wp_forEach f (fun _ s' => I s') (fun b _ s' hs' => hf b s' hs') bs s hs

/-- Two invariants that are each kept are kept together. -/
theorem Keeps.and {p : Prog S α} (hI : Keeps R I p) (hJ : Keeps R J p) :
    Keeps R (fun s => I s ∧ J s) p := by
  intro s hs
  have hboth := wp_and p (hI s hs.1) (hJ s hs.2)
  exact wp_mono p hboth (fun _ _ h => h) fun _ _ => trivial

/-- Invariants that say the same are kept by the same programs. -/
theorem Keeps.congr {p : Prog S α} (h : ∀ s, I s ↔ J s) (hI : Keeps R I p) : Keeps R J p := by
  intro s hs
  exact wp_mono p (hI s ((h s).mpr hs)) (fun _ s' hs' => (h s').mp hs') fun _ he => he

end Munavvar.Invariance
