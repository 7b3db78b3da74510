import Mathlib.Data.List.Pairwise

/-!
# Steps that ensure something

A step of a setup looks whether something is there and makes it if it is not.
Done again it changes nothing, and if a state is left as it is then all was
there. Steps that do not undo each other may be put in a row.
-/

namespace Munavvar.EnsureSteps

variable {σ ε α : Type}

/-- After a step something is done, and where it is done the step changes nothing. -/
structure Ensures (step : σ → Except ε σ) (Done : σ → Prop) : Prop where
  /-- There is nothing left to do. -/
  skip : ∀ s, Done s → step s = .ok s
  /-- A step that succeeds has done it. -/
  done : ∀ s s', step s = .ok s' → Done s'

/-- What is done stays done. -/
def Stable (Done : σ → Prop) (step : σ → Except ε σ) : Prop :=
  ∀ s s', Done s → step s = .ok s' → Done s'

section One

variable {step : σ → Except ε σ} {Done Done' : σ → Prop} {s s' : σ}

/-- A step changes nothing exactly where it is done. -/
theorem Ensures.fixed_iff (h : Ensures step Done) : step s = .ok s ↔ Done s := by
  constructor
  · intro hs
    exact h.done s s hs
  · intro hs
    exact h.skip s hs

/-- A step that was taken changes nothing when it is taken again. -/
theorem Ensures.again (h : Ensures step Done) (hs : step s = .ok s') : step s' = .ok s' :=
  h.skip s' (h.done s s' hs)

/-- A step leaves what it ensures done. -/
theorem Ensures.stable (h : Ensures step Done) : Stable Done step :=
  fun s s' _ hs => h.done s s' hs

theorem Stable.and (h : Stable Done step) (h' : Stable Done' step) :
    Stable (fun s => Done s ∧ Done' s) step :=
  fun s s' hdone hs => ⟨h s s' hdone.1 hs, h' s s' hdone.2 hs⟩

end One

section Rows

/-- One step after another. -/
def andThen (f g : σ → Except ε σ) (s : σ) : Except ε σ := do
  let s ← f s
  g s

theorem andThen_ok {f g : σ → Except ε σ} {s s' : σ} :
    andThen f g s = .ok s' ↔ ∃ s₁, f s = .ok s₁ ∧ g s₁ = .ok s' := by
  unfold andThen
  cases hf : f s with
  | error e => simp [Bind.bind, Except.bind]
  | ok s₁ => simp [Bind.bind, Except.bind]

theorem Stable.andThen {f g : σ → Except ε σ} {Done : σ → Prop} (hf : Stable Done f)
    (hg : Stable Done g) : Stable Done (andThen f g) := by
  intro s s' hdone hs
  obtain ⟨s₁, hs₁, hs'⟩ := andThen_ok.mp hs
  exact hg s₁ s' (hf s s₁ hdone hs₁) hs'

/-- Two steps of which the second does not undo the first. -/
theorem Ensures.andThen {f g : σ → Except ε σ} {D E : σ → Prop} (hf : Ensures f D)
    (hg : Ensures g E) (hstable : Stable D g) :
    Ensures (andThen f g) fun s => D s ∧ E s := by
  constructor
  · intro s hs
    exact andThen_ok.mpr ⟨s, hf.skip s hs.1, hg.skip s hs.2⟩
  · intro s s' hs
    obtain ⟨s₁, hs₁, hs'⟩ := andThen_ok.mp hs
    exact ⟨hstable s₁ s' (hf.done s s₁ hs₁) hs', hg.done s₁ s' hs'⟩

/-- One step for each element. -/
def inTurn (step : α → σ → Except ε σ) : List α → σ → Except ε σ
  | [] => fun s => .ok s
  | a :: rest => andThen (step a) (inTurn step rest)

variable {step : α → σ → Except ε σ} {l : List α}

/-- What relates the states around every step relates those around all of them. -/
theorem inTurn_relation {R : σ → σ → Prop} (hrefl : ∀ s, R s s)
    (htrans : ∀ s s₁ s₂, R s s₁ → R s₁ s₂ → R s s₂)
    (hstep : ∀ a ∈ l, ∀ s s', step a s = .ok s' → R s s') {s s' : σ}
    (h : inTurn step l s = .ok s') : R s s' := by
  induction l generalizing s with
  | nil =>
    cases h
    exact hrefl _
  | cons a l ih =>
    obtain ⟨s₁, hs₁, hs'⟩ := andThen_ok.mp h
    have hrest := ih (fun b hb => hstep b (List.mem_cons_of_mem a hb)) hs'
    exact htrans s s₁ s' (hstep a List.mem_cons_self s s₁ hs₁) hrest

theorem Stable.inTurn {Done : σ → Prop} (h : ∀ a ∈ l, Stable Done (step a)) :
    Stable Done (inTurn step l) := by
  intro s s' hdone hs
  exact inTurn_relation (R := fun s s' => Done s → Done s') (fun _ hs => hs)
    (fun _ _ _ hf hg hs => hg (hf hs)) (fun a ha s s' hs hdone => h a ha s s' hdone hs) hs hdone

/-- Steps of which no later one undoes an earlier one. -/
theorem Ensures.inTurn {Done : α → σ → Prop} (h : ∀ a ∈ l, Ensures (step a) (Done a))
    (hstable : l.Pairwise fun a b => Stable (Done a) (step b)) :
    Ensures (inTurn step l) fun s => ∀ a ∈ l, Done a s := by
  induction l with
  | nil =>
    constructor
    · exact fun s _ => rfl
    · exact fun s s' _ a ha => absurd ha List.not_mem_nil
  | cons a l ih =>
    obtain ⟨hlater, hrest⟩ := List.pairwise_cons.mp hstable
    have htail := ih (fun b hb => h b (List.mem_cons_of_mem a hb)) hrest
    have hboth := (h a List.mem_cons_self).andThen htail (Stable.inTurn hlater)
    constructor
    · intro s hs
      exact hboth.skip s (List.forall_mem_cons.mp hs)
    · intro s s' hs
      exact List.forall_mem_cons.mpr (hboth.done s s' hs)

end Rows

section FindOrMake

variable {β : Type} {matching : σ → List β} {many : ε} {make : σ → Except ε σ}

/-- The step that looks for one thing and makes it if there is none. -/
def findOrMake (matching : σ → List β) (many : ε) (make : σ → Except ε σ) (s : σ) : Except ε σ :=
  match matching s with
  | [] => make s
  | [_] => .ok s
  | _ :: _ :: _ => .error many

/-- What was found is there, or it has just been made. -/
theorem findOrMake_ok {s s' : σ} (h : findOrMake matching many make s = .ok s') :
    matching s = [] ∧ make s = .ok s' ∨ (matching s).length = 1 ∧ s' = s := by
  unfold findOrMake at h
  split at h
  · next hnone => exact .inl ⟨hnone, h⟩
  · next b hone =>
    cases h
    exact .inr ⟨by rw [hone]; rfl, rfl⟩
  · cases h

theorem ensures_findOrMake
    (hmake : ∀ s s', matching s = [] → make s = .ok s' → (matching s').length = 1) :
    Ensures (findOrMake matching many make) fun s => (matching s).length = 1 := by
  constructor
  · intro s hs
    obtain ⟨b, hb⟩ := List.length_eq_one_iff.mp hs
    unfold findOrMake
    rw [hb]
  · intro s s' hs
    rcases findOrMake_ok hs with ⟨hnone, hmade⟩ | ⟨hone, rfl⟩
    · exact hmake s s' hnone hmade
    · exact hone

end FindOrMake

end Munavvar.EnsureSteps
