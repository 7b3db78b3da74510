import Munavvar.ReadCommitted

/-!
# Transactions and commands

Transactions run concurrently on a store while commands change the store, and
what is kept beside it, each as a whole. A command is served alone: what has not
been committed before it is rolled back. What every transaction keeps as one
atomic commit, and every command keeps, holds of all that is ever committed.
-/

namespace Munavvar.MixedRuns

open Munavvar.Transaction
open Munavvar.ReadCommitted

/-- What is served: the program of each operation, the effect of each command,
and which of them are admitted. -/
structure Services (S : Schema) (Op C E : Type) where
  /-- The transaction of an operation. -/
  program : Op → Prog S Unit
  /-- The store and what is beside it after a command, if it succeeds. -/
  command : C → S.State × E → Option (S.State × E)
  /-- Which operations are admitted. -/
  admits : Op → S.Static → Bool
  /-- Which commands are admitted. -/
  admitsCommand : C → S.State × E → Bool

variable {S : Schema} {Op C E : Type}

/-- The running transactions on the store, and what is beside it. -/
structure World (S : Schema) (Op E : Type) where
  /-- The store with its transactions. -/
  sys : Sys S Op
  /-- What only commands use. -/
  beside : E

/-- What is committed. -/
def World.committed (w : World S Op E) : S.State × E := (w.sys.db, w.beside)

/-- No transaction runs. -/
def World.init (x : S.State × E) : World S Op E := ⟨Sys.init x.1, x.2⟩

@[simp] theorem World.committed_init (x : S.State × E) :
    (World.init x : World S Op E).committed = x := rfl

/-- What happens next. -/
inductive Event (Op C : Type)
  /-- A scheduling decision. -/
  | schedule (a : ReadCommitted.Action Op)
  /-- A command. -/
  | command (c : C)

namespace Services

variable (v : Services S Op C E)

/-- The effect of an event. -/
def exec (w : World S Op E) : Event Op C → Option (World S Op E)
  | .schedule a => (w.sys.exec v.program a).map fun sys => { w with sys := sys }
  | .command c => (v.command c w.committed).map World.init

/-- An event is admitted when it is its turn. -/
def meets (w : World S Op E) : Event Op C → Bool
  | .schedule (.start _ op) => v.admits op (S.static w.sys.db)
  | .schedule _ => true
  | .command c => v.admitsCommand c w.committed

/-- The effect of an event that is admitted. -/
def execIf (w : World S Op E) (e : Event Op C) : Option (World S Op E) :=
  if v.meets w e then v.exec w e else none

/-- Runs whose events are admitted. -/
inductive Reachable (w₀ : World S Op E) : World S Op E → Prop
  /-- The start of a run. -/
  | init : Reachable w₀ w₀
  /-- One more event. -/
  | next {w w' : World S Op E} (e : Event Op C) : Reachable w₀ w →
    v.meets w e = true → v.exec w e = some w' → Reachable w₀ w'

end Services

/-- A transaction that is served without interruption in some steps. -/
def served (t : Tid) (op : Op) (steps : ℕ) : List (Event Op C) :=
  .schedule (.start t op) :: (List.replicate steps (.schedule (.step t)) ++ [.schedule (.commit t)])

section Rule

variable {v : Services S Op C E}

/-- Events that were checked and carried out one after another are a run. -/
theorem Services.Reachable.of_events {w₀ w : World S Op E} (events : List (Event Op C))
    (h : events.foldlM v.execIf w₀ = some w) : v.Reachable w₀ w := by
  have hrun : ∀ (events : List (Event Op C)) (w₁ : World S Op E), v.Reachable w₀ w₁ →
      events.foldlM v.execIf w₁ = some w → v.Reachable w₀ w := by
    intro events
    induction events with
    | nil =>
      intro w₁ hw₁ hfold
      cases hfold
      exact hw₁
    | cons e events ih =>
      intro w₁ hw₁ hfold
      obtain ⟨w₂, hstep, hfold⟩ := Option.bind_eq_some_iff.mp hfold
      rw [Services.execIf] at hstep
      split at hstep
      · next hmeets => exact ih w₂ (hw₁.next e hmeets hstep) hfold
      · cases hstep
  exact hrun events w₀ .init h

/-- Every transaction is explained by what is committed, and its operation is admitted. -/
structure Orderly (v : Services S Op C E) (σ : Sys S Op) : Prop where
  /-- Transactions are explained. -/
  explained : σ.Explained v.program fun _ _ _ => True
  /-- Operations are admitted. -/
  admitted : ∀ t x, σ.txns t = some x → v.admits x.op (S.static σ.db) = true

theorem orderly_init (s : S.State) : Orderly v (Sys.init s) :=
  ⟨Sys.init_explained (S := S) s, fun t x hx => absurd hx (by simp [Sys.init])⟩

/-- A scheduling decision leaves what is committed or commits one transaction,
which does what the rules of its program say. -/
theorem Orderly.exec {σ σ' : Sys S Op} (h : Orderly v σ) {a : ReadCommitted.Action Op}
    (hstart : ∀ t op, a = .start t op → v.admits op (S.static σ.db) = true)
    (hexec : σ.exec v.program a = some σ') :
    Orderly v σ' ∧ (σ'.db = σ.db ∨ ∃ op, v.admits op (S.static σ.db) = true ∧
      ∀ Q : Unit → S.State → Prop,
        wp Regime.concurrent (v.program op) Q (fun _ => True) σ.db → Q () σ'.db) := by
  have hok : σ.StatementOk (fun _ _ _ => True) a := by
    cases a with
    | step t => exact fun _ _ _ _ _ _ => trivial
    | _ => exact trivial
  obtain ⟨hexplained, heffect⟩ := Sys.exec_explained h.explained hok hexec
  have hstatic : S.static σ'.db = S.static σ.db := by
    rcases heffect with hdb | ⟨t, op, u, writes, held, -, hdb, -⟩
    · rw [hdb]
    · rw [hdb]
      exact static_view (S := S) σ.db writes
  constructor
  · refine ⟨hexplained, fun t x hx => ?_⟩
    rw [hstatic]
    rcases Sys.exec_op hexec hx with ⟨y, hy, hop⟩ | ha
    · rw [← hop]
      exact h.admitted t y hy
    · exact hstart t x.op ha
  · rcases heffect with hdb | ⟨t, op, u, writes, held, rfl, -, -⟩
    · exact .inl hdb
    · cases hx : σ.txns t with
      | none =>
        rw [Sys.exec, hx] at hexec
        cases hexec
      | some x =>
        refine .inr ⟨x.op, h.admitted t x hx, fun Q hwp => ?_⟩
        have hreach : Reach v.program (fun _ _ _ => True) σ σ := .init
        exact Reach.commit hreach h.explained hx hwp hexec

/-- The run rule. -/
theorem Services.Reachable.invariant {I : S.State × E → Prop}
    (hprogram : ∀ op s e, I (s, e) → v.admits op (S.static s) = true →
      wp Regime.concurrent (v.program op) (fun _ s' => I (s', e)) (fun _ => True) s)
    (hcommand : ∀ c x x', I x → v.admitsCommand c x = true → v.command c x = some x' → I x')
    {x : S.State × E} (hx : I x) {w : World S Op E} (h : v.Reachable (World.init x) w) :
    I w.committed := by
  have hboth : Orderly v w.sys ∧ I w.committed := by
    induction h with
    | init => exact ⟨orderly_init _, hx⟩
    | @next w w' e _ hmeets hexec ih =>
      obtain ⟨horderly, hinv⟩ := ih
      cases e with
      | schedule a =>
        obtain ⟨σ', hsys, rfl⟩ := Option.map_eq_some_iff.mp hexec
        have hstart : ∀ t op, a = .start t op → v.admits op (S.static w.sys.db) = true := by
          intro t op ha
          rw [ha] at hmeets
          exact hmeets
        obtain ⟨horderly', heffect⟩ := horderly.exec hstart hsys
        refine ⟨horderly', ?_⟩
        rcases heffect with hdb | ⟨op, hop, hcommit⟩
        · rw [World.committed]
          dsimp only
          rw [hdb]
          exact hinv
        · exact hcommit _ (hprogram op _ _ hinv hop)
      | command c =>
        obtain ⟨x', hx', rfl⟩ := Option.map_eq_some_iff.mp hexec
        exact ⟨orderly_init _, hcommand c _ x' hinv hmeets hx'⟩
  exact hboth.2

end Rule

end Munavvar.MixedRuns
