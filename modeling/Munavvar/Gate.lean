import Munavvar.Isolation

/-!
# Operations behind one lock

Operations that all begin by taking the same row lock run one after another:
who holds the lock finds nobody else underway. A run records how each operation
ended, and every record is that of the same operations served alone in the
order of their ends.
-/

namespace Munavvar.Gate

open Munavvar.Transaction
open Munavvar.Transaction.Prog
open Munavvar.ReadCommitted
open Munavvar.Isolation

variable {S : Schema} {Op : Type}

/-! ## Records -/

/-- The operation that a decision ends, with its exception if it raised one. A
transaction that is interrupted leaves no record. -/
def ending (σ : Sys S Op) : Action Op → List (Op × Option S.Err)
  | .commit t =>
    match σ.txns t with
    | some x => [(x.op, none)]
    | none => []
  | .rollback t =>
    match σ.txns t with
    | some ⟨op, .raise e, _⟩ => [(op, some e)]
    | _ => []
  | _ => []

/-- Runs with the record of the operations that have ended, oldest first. -/
inductive Recorded (program : Op → Prog S Unit) (σ₀ : Sys S Op) :
    List (Op × Option S.Err) → Sys S Op → Prop
  /-- The start of a run. -/
  | init : Recorded program σ₀ [] σ₀
  /-- One more decision. -/
  | next {l : List (Op × Option S.Err)} {σ σ' : Sys S Op} (a : Action Op) :
    Recorded program σ₀ l σ → σ.exec program a = some σ' →
    Recorded program σ₀ (l ++ ending σ a) σ'

/-- Execute a decision and record what it ends. -/
def record (program : Op → Prog S Unit) (st : List (Op × Option S.Err) × Sys S Op) (a : Action Op) :
    Option (List (Op × Option S.Err) × Sys S Op) :=
  (st.2.exec program a).map fun σ' => (st.1 ++ ending st.2 a, σ')

/-- Decisions that are carried out one after another are a recorded run. -/
theorem Recorded.of_actions {program : Op → Prog S Unit} {σ₀ σ : Sys S Op}
    {l : List (Op × Option S.Err)} (actions : List (Action Op))
    (h : actions.foldlM (record program) ([], σ₀) = some (l, σ)) : Recorded program σ₀ l σ := by
  have hrun : ∀ (actions : List (Action Op)) (st : List (Op × Option S.Err) × Sys S Op),
      Recorded program σ₀ st.1 st.2 → actions.foldlM (record program) st = some (l, σ) →
      Recorded program σ₀ l σ := by
    intro actions
    induction actions with
    | nil =>
      intro st hst hfold
      cases hfold
      exact hst
    | cons a actions ih =>
      intro st hst hfold
      obtain ⟨st', hstep, hfold⟩ := Option.bind_eq_some_iff.mp hfold
      obtain ⟨σ', hexec, rfl⟩ := Option.map_eq_some_iff.mp hstep
      exact ih _ (hst.next a hexec) hfold
  exact hrun actions _ .init h

/-- The exception that a program served alone ends with. -/
def exceptionOf {α : Type} (p : Prog S α) (s : S.State) : Option S.Err :=
  match p.run s with
  | .ok _ => none
  | .error e => some e

/-- The record of operations that are served one after another. -/
def served (program : Op → Prog S Unit) : List Op → S.State → List (Op × Option S.Err)
  | [], _ => []
  | op :: ops, s => (op, exceptionOf (program op) s) :: served program ops (serve (program op) s)

theorem served_append (program : Op → Prog S Unit) (ops ops' : List Op) (s : S.State) :
    served program (ops ++ ops') s =
      served program ops s ++ served program ops' (serveAll program ops s) := by
  induction ops generalizing s with
  | nil => rfl
  | cons op ops ih => rw [List.cons_append, served, served, ih, List.cons_append]; rfl

theorem map_fst_served (program : Op → Prog S Unit) (ops : List Op) (s : S.State) :
    (served program ops s).map Prod.fst = ops := by
  induction ops generalizing s with
  | nil => rfl
  | cons op ops ih => rw [served, List.map_cons, ih]

/-! ## Who waits at the lock -/

/-- Every operation begins by taking the lock. -/
def Guarded (program : Op → Prog S Unit) (k : S.Key) : Prop :=
  ∀ op, ∃ next, program op = .lock k next

/-- Whoever has executed something holds the lock, and nobody else holds any. -/
structure Gated (program : Op → Prog S Unit) (k : S.Key) (σ : Sys S Op) : Prop where
  /-- The others have not executed anything. -/
  waiting : ∀ t x, σ.txns t = some x → Untouched program x ∨ σ.holder k = some t
  /-- Every other lock belongs to the holder of the lock. -/
  holders : ∀ j t, σ.holder j = some t → σ.holder k = some t
  /-- Every operation goes on as if it were served alone. -/
  replays : ∀ t x, σ.txns t = some x → Replays program σ.db x

section Runs

variable {program : Op → Prog S Unit} {k : S.Key} {σ σ' : Sys S Op} {t : Tid} {x y : Txn S Op}
  {holder : S.Key → Option Tid}

theorem init_gated (db : S.State) : Gated program k (Sys.init db) where
  waiting _ _ hx := absurd hx (by simp [Sys.init])
  holders _ _ hj := absurd hj (by simp [Sys.init])
  replays _ _ hx := absurd hx (by simp [Sys.init])

/-- An operation that has executed something holds the lock. -/
theorem Gated.holder_of_ended (h : Gated program k σ) (hguarded : Guarded program k)
    (hx : σ.txns t = some x) (hended : ∀ next, x.prog ≠ .lock k next) :
    σ.holder k = some t := by
  refine (h.waiting t x hx).resolve_left fun huntouched => ?_
  obtain ⟨next, hnext⟩ := hguarded x.op
  exact hended next (huntouched.1.trans hnext)

/-- Who executes a step finds no lock in other hands. -/
theorem Gated.alone (h : Gated program k σ) (hguarded : Guarded program k)
    (hx : σ.txns t = some x) (hsteps : σ.Steps t x y holder) :
    (∀ j u, σ.holder j = some u → u = t) ∧ holder k = some t := by
  by_cases hheld : σ.holder k = some t
  · constructor
    · intro j u hj
      have hu := h.holders j u hj
      rw [hheld, Option.some.injEq] at hu
      exact hu.symm
    · rcases hsteps.holder_cases with hsame | ⟨j, -, hsame⟩
      · rw [hsame, hheld]
      · rw [hsame]
        exact Sys.acquire_of_held hheld
  · have huntouched := (h.waiting t x hx).resolve_right hheld
    obtain ⟨next, hnext⟩ := hguarded x.op
    have hprog : x.prog = .lock k next := huntouched.1.trans hnext
    cases hsteps with
    | lock hfree =>
      cases hprog
      constructor
      · intro j u hj
        have hu := h.holders j u hj
        rcases hfree with hnone | hself
        · rw [hnone] at hu
          cases hu
        · exact absurd hself hheld
      · exact Sys.acquire_self k
    | _ => cases hprog

/-- A program step keeps the order at the lock. -/
theorem Gated.steps (h : Gated program k σ) (hguarded : Guarded program k)
    (hx : σ.txns t = some x) (hsteps : σ.Steps t x y holder) :
    Gated program k (σ.resume t y holder) := by
  obtain ⟨halone, hself⟩ := h.alone hguarded hx hsteps
  have hfree : ∀ j next, x.prog = .tryLock j next → σ.Free t j := by
    intro j _ _
    cases hj : σ.holder j with
    | none => exact .inl hj
    | some u => exact .inr (hj.trans (congrArg some (halone j u hj)))
  constructor
  · intro u z hz
    rcases Sys.resume_cases hz with ⟨rfl, rfl⟩ | ⟨hu, hz⟩
    · exact .inr hself
    · exact .inl ((h.waiting u z hz).resolve_right fun hheld => hu (halone k u hheld))
  · intro j u hj
    have hu : u = t := by
      by_contra hne
      exact hne (halone j u ((hsteps.others hne j).mp hj))
    rw [hu]
    exact hself
  · intro u z hz
    rcases Sys.resume_cases hz with ⟨rfl, rfl⟩ | ⟨-, hz⟩
    · exact (h.replays u x hx).steps hfree hsteps
    · exact h.replays u z hz

/-- The end of one operation keeps the order at the lock. -/
theorem Gated.finish (h : Gated program k σ) {db : S.State}
    (hdb : ∀ u y, u ≠ t → σ.txns u = some y → Replays program db y) :
    Gated program k (σ.finish t db) := by
  constructor
  · intro u y hy
    obtain ⟨hu, hy⟩ := Sys.finish_cases hy
    exact (h.waiting u y hy).imp_right (Sys.release_others hu k).mpr
  · intro j u hj
    have hu : u ≠ t := by
      rintro rfl
      exact Sys.release_self j hj
    exact (Sys.release_others hu k).mpr (h.holders j u ((Sys.release_others hu j).mp hj))
  · intro u y hy
    obtain ⟨hu, hy⟩ := Sys.finish_cases hy
    exact hdb u y hu hy

/-- A decision keeps the order at the lock, and what it ends is recorded as if
the operation were served alone. -/
theorem Gated.exec (h : Gated program k σ) (hguarded : Guarded program k) {a : Action Op}
    (hexec : σ.exec program a = some σ') :
    Gated program k σ' ∧ ∃ ops, ending σ a = served program ops σ.db ∧
      σ'.db = serveAll program ops σ.db := by
  cases a with
  | start t op =>
    obtain ⟨-, rfl⟩ := Sys.start_cases hexec
    refine ⟨⟨fun u y hy => ?_, h.holders, fun u y hy => ?_⟩, [], rfl, rfl⟩
    · rcases Sys.resume_cases hy with ⟨rfl, rfl⟩ | ⟨-, hy⟩
      · exact .inl ⟨rfl, rfl⟩
      · exact h.waiting u y hy
    · rcases Sys.resume_cases hy with ⟨rfl, rfl⟩ | ⟨-, hy⟩
      · exact rfl
      · exact h.replays u y hy
  | step t =>
    obtain ⟨x, y, holder, hx, rfl, hsteps⟩ := Sys.step_cases hexec
    exact ⟨h.steps hguarded hx hsteps, [], rfl, rfl⟩
  | commit t =>
    obtain ⟨x, u, hx, hret, rfl⟩ := Sys.commit_cases hexec
    have hheld := h.holder_of_ended hguarded hx (by simp [hret])
    have hreplays := h.replays t x hx
    rw [Replays, hret] at hreplays
    refine ⟨h.finish fun v y hv hy => ?_, [x.op], ?_, ?_⟩
    · -- whoever else is running still waits at the lock
      have hwaits := (h.waiting v y hy).resolve_right fun hother =>
        hv (Option.some.inj (hother.symm.trans hheld))
      exact hwaits.replays _
    · rw [ending, hx, served, served, exceptionOf, hreplays]
      rfl
    · rw [serveAll, List.foldl_cons, List.foldl_nil, serve, hreplays]
      rfl
  | rollback t =>
    obtain ⟨x, hx, rfl⟩ := Sys.rollback_cases hexec
    refine ⟨h.finish fun v y _ hy => h.replays v y hy, ?_⟩
    by_cases hfailed : Failed x
    · obtain ⟨e, he⟩ := hfailed
      have hreplays := h.replays t x hx
      rw [Replays, he] at hreplays
      obtain ⟨op, prog, writes⟩ := x
      dsimp only at he hreplays
      subst he
      refine ⟨[op], ?_, ?_⟩
      · rw [ending, hx, served, served, exceptionOf, hreplays]
        rfl
      · rw [serveAll, List.foldl_cons, List.foldl_nil, serve, hreplays]
        rfl
    · refine ⟨[], ?_, rfl⟩
      rw [ending, hx]
      split
      · next op e writes heq =>
        cases heq
        exact absurd ⟨e, rfl⟩ hfailed
      · rfl

/-- Every run of operations behind one lock ends as the operations do that were
served alone, one after another. -/
theorem recorded_serial (hguarded : Guarded program k) {db : S.State}
    {l : List (Op × Option S.Err)} (h : Recorded program (Sys.init db) l σ) :
    ∃ ops, l = served program ops db ∧ σ.db = serveAll program ops db := by
  have hmain : Gated program k σ ∧
      ∃ ops, l = served program ops db ∧ σ.db = serveAll program ops db := by
    induction h with
    | init => exact ⟨init_gated db, [], rfl, rfl⟩
    | next a _ hexec ih =>
      obtain ⟨hgated, ops, hrecord, hdb⟩ := ih
      obtain ⟨hgated', ops', hrecord', hdb'⟩ := hgated.exec hguarded hexec
      refine ⟨hgated', ops ++ ops', ?_, ?_⟩
      · rw [served_append, hrecord, hrecord', hdb]
      · rw [serveAll_append, hdb', hdb]
  exact hmain.2

end Runs

end Munavvar.Gate
