import Munavvar.ClientService
import Munavvar.ContractEffects
import Munavvar.ReadCommitted

/-!
# The services of the company

Transactions of the order, contract and stock services run concurrently. A
command of the client service extends the directory that all of them read and
is served alone. What every transaction keeps as one atomic commit, and every
command keeps, holds in all committed states.
-/

namespace Munavvar.Company

open Munavvar.KeyedTable
open Munavvar.Transaction
open Munavvar.Transaction.Prog
open Munavvar.ReadCommitted
open Munavvar.Database
open Munavvar.Statements
open Munavvar.StockLedger
open Munavvar.OrderQueries
open Munavvar.OrderService
open Munavvar.StockService
open Munavvar.ClientService
open Munavvar.Operations (Request)

/-! ## Runs -/

/-- What a transaction is started for. -/
inductive ServiceRequest
  | operation (r : Request)
  | stock (env : Env) (op : StockOperation)

/-- The transaction of a request. -/
def program : ServiceRequest → Uow Unit
  | .operation r => Operations.program r
  | .stock env op => op.program env

/-- The running transactions on the database, and the identities beside it. -/
structure World where
  /-- The database with its transactions. -/
  sys : Sys schema ServiceRequest
  /-- `identities` of the local provider. -/
  identities : List (String × Uuid)

/-- What is committed. -/
def World.registry (w : World) : Registry := ⟨w.sys.db, w.identities⟩

/-- No transaction runs. -/
def World.init (r : Registry) : World := ⟨Sys.init r.db, r.identities⟩

/-- What happens next. -/
inductive Event
  /-- A scheduling decision. -/
  | schedule (a : ReadCommitted.Action ServiceRequest)
  /-- A command of the client service. -/
  | client (env : Env) (op : ClientOperation)

/-- The effect of an event. A command is served alone: what has not been
committed before it is rolled back. -/
def World.exec (w : World) : Event → Option World
  | .schedule a => (w.sys.exec program a).map fun sys => { w with sys := sys }
  | .client env op =>
    match op.run env w.registry with
    | .ok r => some (World.init r)
    | .error _ => none

/-- The requests that transactions are started for meet a condition on the
directory, and so do the commands. -/
def Event.meets (ok : ServiceRequest → Directory → Bool) (okClient : ClientOperation → Bool)
    (w : World) : Event → Bool
  | .schedule (.start _ r) => ok r w.sys.db.directory
  | .schedule _ => true
  | .client _ op => okClient op

/-- Runs of the company whose requests meet a condition. -/
inductive Reachable (ok : ServiceRequest → Directory → Bool) (okClient : ClientOperation → Bool)
    (w₀ : World) : World → Prop
  /-- The start of a run. -/
  | init : Reachable ok okClient w₀ w₀
  /-- One more event. -/
  | next {w w' : World} (e : Event) : Reachable ok okClient w₀ w →
    e.meets ok okClient w = true → w.exec e = some w' → Reachable ok okClient w₀ w'

/-- The effect of an event whose request meets the condition. -/
def World.execIf (ok : ServiceRequest → Directory → Bool) (okClient : ClientOperation → Bool)
    (w : World) (e : Event) : Option World :=
  if e.meets ok okClient w then w.exec e else none

/-- A transaction that is served without interruption in some steps. -/
def served (t : Tid) (r : ServiceRequest) (steps : ℕ) : List Event :=
  .schedule (.start t r) :: (List.replicate steps (.schedule (.step t)) ++ [.schedule (.commit t)])

section Rule

variable {ok : ServiceRequest → Directory → Bool} {okClient : ClientOperation → Bool}

/-- Events that were checked and carried out one after another are a run. -/
theorem Reachable.of_events {w₀ w : World} (events : List Event)
    (h : events.foldlM (World.execIf ok okClient) w₀ = some w) : Reachable ok okClient w₀ w := by
  have hrun : ∀ (events : List Event) (w₁ : World), Reachable ok okClient w₀ w₁ →
      events.foldlM (World.execIf ok okClient) w₁ = some w → Reachable ok okClient w₀ w := by
    intro events
    induction events with
    | nil =>
      intro w₁ hw₁ hfold
      cases hfold
      exact hw₁
    | cons e events ih =>
      intro w₁ hw₁ hfold
      obtain ⟨w₂, hstep, hfold⟩ := Option.bind_eq_some_iff.mp hfold
      rw [World.execIf] at hstep
      split at hstep
      · next hmeets => exact ih w₂ (hw₁.next e hmeets hstep) hfold
      · cases hstep
  exact hrun events w₀ .init h

/-- Every transaction is explained by what is committed, and its request meets the condition. -/
structure Orderly (ok : ServiceRequest → Directory → Bool) (σ : Sys schema ServiceRequest) :
    Prop where
  /-- Transactions are explained. -/
  explained : σ.Explained program fun _ _ _ => True
  /-- Requests meet the condition. -/
  meets : ∀ t x, σ.txns t = some x → ok x.op σ.db.directory = true

theorem orderly_init (db : Db) : Orderly ok (Sys.init db) :=
  ⟨Sys.init_explained (S := schema) db, fun t x hx => absurd hx (by simp [Sys.init])⟩

/-- What one transaction can do: what the rules of its program say. -/
def CommitOf (σ : Sys schema ServiceRequest) (db : Db) (r : ServiceRequest) : Prop :=
  ∀ (Q : Unit → Db → Prop) (E : Err → Prop), wp Regime.concurrent (program r) Q E σ.db → Q () db

/-- A scheduling decision leaves the committed state or commits one transaction. -/
theorem Orderly.exec {σ σ' : Sys schema ServiceRequest} (h : Orderly ok σ)
    {a : ReadCommitted.Action ServiceRequest}
    (hstart : ∀ t r, a = .start t r → ok r σ.db.directory = true)
    (hexec : σ.exec program a = some σ') :
    Orderly ok σ' ∧ (σ'.db = σ.db ∨ ∃ t x, a = .commit t ∧ σ.txns t = some x ∧
      ok x.op σ.db.directory = true ∧ CommitOf σ σ'.db x.op) := by
  have hok : σ.StatementOk (fun _ _ _ => True) a := by
    cases a with
    | step t => exact fun _ _ _ _ _ _ => trivial
    | _ => exact trivial
  obtain ⟨hexplained, heffect⟩ := Sys.exec_explained h.explained hok hexec
  have hdirectory : σ'.db.directory = σ.db.directory := by
    rcases heffect with hdb | ⟨t, op, u, writes, held, -, hdb, -⟩
    · rw [hdb]
    · rw [hdb]
      exact static_view (S := schema) σ.db writes
  refine ⟨⟨hexplained, fun t x hx => ?_⟩, ?_⟩
  · rw [hdirectory]
    rcases Sys.exec_op hexec hx with ⟨y, hy, hop⟩ | ha
    · rw [← hop]
      exact h.meets t y hy
    · exact hstart t x.op ha
  · rcases heffect with hdb | ⟨t, op, u, writes, held, rfl, -, -⟩
    · exact .inl hdb
    · cases hx : σ.txns t with
      | none =>
        rw [Sys.exec, hx] at hexec
        cases hexec
      | some x =>
        refine .inr ⟨t, x, rfl, hx, h.meets t x hx, fun Q E hop => ?_⟩
        have hreach : Reach program (fun _ _ _ => True) σ σ := .init
        exact Reach.commit hreach h.explained hx hop hexec

/-- The run rule: what every transaction and every command keeps of the
committed state holds in every reachable state, and every event moves the
committed state as one of them does. -/
theorem Reachable.kept {I : Db → Prop} {T : Db → Db → Prop} (hrefl : ∀ s, T s s)
    (hservice : ∀ r s, I s → ok r s.directory = true →
      wp Regime.concurrent (program r) (fun _ s' => I s' ∧ T s s') (fun _ => True) s)
    (hclient : ∀ env op r r', I r.db → okClient op = true → ClientOperation.run env op r = .ok r' →
      I r'.db ∧ T r.db r'.db)
    {r : Registry} (hr : I r.db) {w : World} (h : Reachable ok okClient (World.init r) w) :
    I w.sys.db ∧ ∀ e w', Event.meets ok okClient w e = true → w.exec e = some w' →
      T w.sys.db w'.sys.db := by
  have hstep : ∀ {w : World} {e w'}, Orderly ok w.sys → I w.sys.db →
      Event.meets ok okClient w e = true → w.exec e = some w' →
      Orderly ok w'.sys ∧ I w'.sys.db ∧ T w.sys.db w'.sys.db := by
    intro w e w' horderly hinv hmeets hexec
    cases e with
    | schedule a =>
      obtain ⟨σ', hsys, rfl⟩ := Option.map_eq_some_iff.mp hexec
      have hstart : ∀ t r, a = .start t r → ok r w.sys.db.directory = true := by
        rintro t r rfl
        exact hmeets
      obtain ⟨horderly', heffect⟩ := horderly.exec hstart hsys
      rcases heffect with hdb | ⟨t, x, -, -, hx, hcommit⟩
      · dsimp only
        rw [hdb]
        exact ⟨horderly', hinv, hrefl _⟩
      · exact ⟨horderly', hcommit _ _ (hservice x.op _ hinv hx)⟩
    | client env op =>
      cases hrun : op.run env w.registry with
      | error e => simp [World.exec, hrun] at hexec
      | ok r' =>
        simp only [World.exec, hrun, Option.some.injEq] at hexec
        subst hexec
        exact ⟨orderly_init _, hclient env op w.registry r' hinv hmeets hrun⟩
  have hreach : Orderly ok w.sys ∧ I w.sys.db := by
    induction h with
    | init => exact ⟨orderly_init _, hr⟩
    | next e _ hmeets hexec ih =>
      obtain ⟨horderly, hinv, -⟩ := hstep ih.1 ih.2 hmeets hexec
      exact ⟨horderly, hinv⟩
  exact ⟨hreach.2, fun e w' hmeets hexec => (hstep hreach.1 hreach.2 hmeets hexec).2.2⟩

end Rule

end Munavvar.Company
