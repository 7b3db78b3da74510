import Mathlib.Data.List.Basic

/-!
# Runs of events

A component takes events one after another. Each event turns a state into the
next one, and a command that fails leaves the state as it was. What holds at the
start and is kept by every event that meets a condition holds after each run
whose events all meet it when it is their turn.
-/

namespace Munavvar.EventRuns

variable {σ E ε : Type}

/-- The state after a command; one that fails leaves it as it was. -/
def attempt (command : σ → Except ε σ) (s : σ) : σ :=
  match command s with
  | .ok s' => s'
  | .error _ => s

/-- What holds before a command and after its success holds after it. -/
theorem attempt_keeps {command : σ → Except ε σ} {I : σ → Prop} {s : σ} (hs : I s)
    (h : ∀ s', command s = .ok s' → I s') : I (attempt command s) := by
  unfold attempt
  split
  · next s' hrun => exact h s' hrun
  · exact hs

section Runs

variable (serve : E → σ → σ)

/-- The state after several events. -/
def serveEach (events : List E) (s : σ) : σ := events.foldl (fun s e => serve e s) s

/-- Every event meets a condition when it is its turn. -/
def Each (cond : E → σ → Prop) : List E → σ → Prop
  | [], _ => True
  | e :: events, s => cond e s ∧ Each cond events (serve e s)

instance Each.decidable (cond : E → σ → Prop) [∀ e s, Decidable (cond e s)] :
    ∀ events s, Decidable (Each serve cond events s)
  | [], _ => .isTrue trivial
  | e :: events, s =>
    have := Each.decidable cond events (serve e s)
    inferInstanceAs (Decidable (cond e s ∧ Each serve cond events (serve e s)))

variable {serve}

/-- The run rule for an invariant. -/
theorem Each.invariant {cond : E → σ → Prop} {I : σ → Prop} {s : σ} (hs : I s)
    (hstep : ∀ e s, cond e s → I s → I (serve e s)) {events : List E}
    (h : Each serve cond events s) : I (serveEach serve events s) := by
  induction events generalizing s with
  | nil => exact hs
  | cons e events ih => exact ih (hstep e s h.1 hs) h.2

/-- The run rule for a relation between the first state and the last one. -/
theorem Each.relation {cond : E → σ → Prop} {R : σ → σ → Prop} (hrefl : ∀ s, R s s)
    (htrans : ∀ s s' s'', R s s' → R s' s'' → R s s'')
    (hstep : ∀ e s, cond e s → R s (serve e s)) {events : List E} {s : σ}
    (h : Each serve cond events s) : R s (serveEach serve events s) := by
  refine h.invariant (I := R s) (hrefl s) fun e s' hcond hs' => ?_
  exact htrans s s' _ hs' (hstep e s' hcond)

end Runs

end Munavvar.EventRuns
