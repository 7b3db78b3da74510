import Munavvar.Interference

/-!
# Transactions that are not disturbed

A transaction that nobody's commit disturbs ends as if it were served alone:
what is left of it leads to the same end as its whole program on the committed
state. Runs in which no change is committed past a transaction that is underway
are serial runs in the order of their commits.
-/

namespace Munavvar.Isolation

open Munavvar.Transaction
open Munavvar.Transaction.Prog
open Munavvar.ReadCommitted
open Munavvar.Interference

variable {S : Schema} {Op : Type}

/-- What is left of a transaction ends as its whole program does on the committed state. -/
def Replays (program : Op → Prog S Unit) (s : S.State) (x : Txn S Op) : Prop :=
  (program x.op).run s = x.prog.run (view s x.writes)

/-- A transaction that has failed. -/
def Failed (x : Txn S Op) : Prop := ∃ e, x.prog = .raise e

/-- A transaction that has not executed anything. -/
def Untouched (program : Op → Prog S Unit) (x : Txn S Op) : Prop :=
  x.prog = program x.op ∧ x.writes = []

/-- No row is skipped, and no change is committed past a transaction that is underway. -/
def Undisturbed (program : Op → Prog S Unit) (σ : Sys S Op) : Action Op → Prop
  | .step t => ∀ x k next, σ.txns t = some x → x.prog = .tryLock k next → σ.Free t k
  | .commit t => ∀ σ', σ.exec program (.commit t) = some σ' → σ'.db = σ.db ∨
      ∀ u y, u ≠ t → σ.txns u = some y → Untouched program y ∨ Failed y
  | _ => True

section Runs

variable {program : Op → Prog S Unit} {σ σ' : Sys S Op} {db : S.State}

theorem Untouched.replays {x : Txn S Op} (h : Untouched program x) (s : S.State) :
    Replays program s x := by
  rw [Replays, h.1, h.2, view_nil]

/-- Every running transaction replays or has failed. -/
def Replayed (program : Op → Prog S Unit) (σ : Sys S Op) : Prop :=
  ∀ t x, σ.txns t = some x → Replays program σ.db x ∨ Failed x

theorem init_replayed (db : S.State) : Replayed program (Sys.init db) :=
  fun _ _ hx => absurd hx (by simp [Sys.init])

/-- One transaction goes on. -/
theorem Replayed.resume (h : Replayed program σ) {t : Tid} {x : Txn S Op}
    {holder : S.Key → Option Tid} (hx : Replays program σ.db x ∨ Failed x) :
    Replayed program (σ.resume t x holder) := by
  intro u y hy
  rcases Sys.resume_cases hy with ⟨rfl, rfl⟩ | ⟨-, hy⟩
  · exact hx
  · exact h u y hy

/-- A transaction ends and the others still replay on what it leaves. -/
theorem Replayed.finish {t : Tid} {db : S.State}
    (h : ∀ u y, u ≠ t → σ.txns u = some y → Replays program db y ∨ Failed y) :
    Replayed program (σ.finish t db) := by
  intro u y hy
  obtain ⟨hu, hy⟩ := Sys.finish_cases hy
  exact h u y hu hy

/-- A program step takes the same course as the program served alone. -/
theorem Replays.steps {t : Tid} {x y : Txn S Op} {holder : S.Key → Option Tid}
    (h : Replays program σ.db x) (hfree : ∀ k next, x.prog = .tryLock k next → σ.Free t k)
    (hsteps : σ.Steps t x y holder) : Replays program σ.db y := by
  cases hsteps with
  | query => exact h
  | lock _ => exact h
  | tryLock _ => exact h
  | skip hheld => exact absurd (hfree _ _ rfl) hheld
  | write _ hr =>
    rw [Replays, run] at h
    dsimp only at h
    rw [hr] at h
    rw [Replays, view_concat]
    exact h
  | fail _ he =>
    rw [Replays, run] at h
    dsimp only at h
    rw [he] at h
    exact h

/-- A failed transaction executes nothing more. -/
theorem Failed.not_steps {t : Tid} {x y : Txn S Op} {holder : S.Key → Option Tid}
    (h : Failed x) : ¬σ.Steps t x y holder := by
  intro hsteps
  obtain ⟨e, he⟩ := h
  cases hsteps <;> cases he

theorem Replayed.steps (h : Replayed program σ) {t : Tid} {x y : Txn S Op}
    {holder : S.Key → Option Tid} (hx : σ.txns t = some x)
    (hfree : ∀ k next, x.prog = .tryLock k next → σ.Free t k)
    (hsteps : σ.Steps t x y holder) : Replayed program (σ.resume t y holder) := by
  rcases h t x hx with hreplays | hfailed
  · exact h.resume (.inl (hreplays.steps hfree hsteps))
  · exact absurd hsteps hfailed.not_steps

/-- A commit publishes what the operation leaves when it is served alone. -/
theorem Replayed.commit (h : Replayed program σ) {t : Tid} {x : Txn S Op}
    (hx : σ.txns t = some x) (hexec : σ.exec program (.commit t) = some σ') :
    ∃ u, (program x.op).run σ.db = .ok (u, σ'.db) := by
  obtain ⟨y, u, hy, hret, rfl⟩ := Sys.commit_cases hexec
  cases hx.symm.trans hy
  have hreplays := (h t x hx).resolve_right fun ⟨e, he⟩ => by cases hret.symm.trans he
  rw [Replays, hret] at hreplays
  exact ⟨u, hreplays⟩

/-- Every decision that disturbs no transaction lets all of them replay. -/
theorem Replayed.exec (h : Replayed program σ) {a : Action Op} (ha : Undisturbed program σ a)
    (hexec : σ.exec program a = some σ') : Replayed program σ' := by
  cases a with
  | start t op =>
    obtain ⟨-, rfl⟩ := Sys.start_cases hexec
    exact h.resume (.inl rfl)
  | step t =>
    obtain ⟨x, y, holder, hx, rfl, hsteps⟩ := Sys.step_cases hexec
    exact h.steps hx (fun k next => ha x k next hx) hsteps
  | commit t =>
    have hquiet := ha σ' hexec
    obtain ⟨x, u, hx, -, rfl⟩ := Sys.commit_cases hexec
    refine Replayed.finish fun v y hv hy => ?_
    rcases hquiet with hsame | hidle
    · change view σ.db x.writes = σ.db at hsame
      rw [hsame]
      exact h v y hy
    · exact (hidle v y hv hy).imp_left fun hy => hy.replays _
  | rollback t =>
    obtain ⟨x, -, rfl⟩ := Sys.rollback_cases hexec
    exact Replayed.finish fun v y _ hy => h v y hy

theorem replayed_of_runs (h : Runs program (Undisturbed program) (Sys.init db) σ) :
    Replayed program σ := by
  induction h with
  | init => exact init_replayed db
  | next a _ ha hexec ih => exact ih.exec ha hexec

/-- What serving one operation keeps holds in every undisturbed run. -/
theorem undisturbed_invariant {I : S.State → Prop}
    (hstep : ∀ op s, I s → I (serve (program op) s)) (hinit : I db)
    (h : Runs program (Undisturbed program) (Sys.init db) σ) : I σ.db := by
  induction h with
  | init => exact hinit
  | @next σ σ' a hprev _ hexec ih =>
    by_cases hcommit : ∃ t, a = .commit t
    · obtain ⟨t, rfl⟩ := hcommit
      obtain ⟨x, -, hx, -, -⟩ := Sys.commit_cases hexec
      obtain ⟨u, hrun⟩ := (replayed_of_runs hprev).commit hx hexec
      have hserved := hstep x.op σ.db ih
      rwa [serve, hrun] at hserved
    · rw [Sys.db_of_not_commit (fun t ha => hcommit ⟨t, ha⟩) hexec]
      exact ih

/-! ## One transaction at a time -/

/-- Execute a decision if no two transactions are running and no lock is only tried. -/
def execAlone (program : Op → Prog S Unit) (tids : List Tid) (σ : Sys S Op) (a : Action Op) :
    Option (Sys S Op) :=
  match a with
  | .start t _ =>
    if t ∈ tids ∧ tids.all (fun u => (σ.txns u).isNone) = true then σ.exec program a else none
  | .step t =>
    match σ.txns t with
    | some ⟨_, .tryLock _ _, _⟩ => none
    | _ => σ.exec program a
  | _ => σ.exec program a

/-- At most one transaction is running. -/
structure OneRuns (tids : List Tid) (σ : Sys S Op) : Prop where
  /-- Transactions have known names. -/
  known : ∀ t x, σ.txns t = some x → t ∈ tids
  /-- No two are running. -/
  unique : ∀ t u x y, σ.txns t = some x → σ.txns u = some y → t = u

theorem init_oneRuns (tids : List Tid) (db : S.State) : OneRuns tids (Sys.init db : Sys S Op) where
  known _ _ hx := absurd hx (by simp [Sys.init])
  unique _ _ _ _ hx := absurd hx (by simp [Sys.init])

theorem execAlone_undisturbed {tids : List Tid} (h : OneRuns tids σ) {a : Action Op}
    (hexec : execAlone program tids σ a = some σ') :
    Undisturbed program σ a ∧ σ.exec program a = some σ' ∧ OneRuns tids σ' := by
  have hkept : ∀ (hstep : σ.exec program a = some σ'), (∀ t op, a ≠ .start t op) →
      OneRuns tids σ' := by
    intro hstep hstart
    have hbefore : ∀ u y, σ'.txns u = some y → ∃ x, σ.txns u = some x := by
      intro u y hy
      rcases Sys.exec_op hstep hy with ⟨x, hx, -⟩ | rfl
      · exact ⟨x, hx⟩
      · exact absurd rfl (hstart u y.op)
    constructor
    · intro u y hy
      obtain ⟨x, hx⟩ := hbefore u y hy
      exact h.known u x hx
    · intro u v y z hy hz
      obtain ⟨x, hx⟩ := hbefore u y hy
      obtain ⟨w, hw⟩ := hbefore v z hz
      exact h.unique u v x w hx hw
  cases a with
  | start t op =>
    rw [execAlone] at hexec
    split at hexec
    · next hidle =>
      have hnone : ∀ u, σ.txns u = none := by
        intro u
        cases hu : σ.txns u with
        | none => rfl
        | some x =>
          have hcheck := List.all_eq_true.mp hidle.2 u (h.known u x hu)
          rw [hu] at hcheck
          cases hcheck
      have hself : ∀ u y, σ'.txns u = some y → u = t := by
        intro u y hy
        rcases Sys.exec_op hexec hy with ⟨x, hx, -⟩ | heq
        · rw [hnone u] at hx
          cases hx
        · cases heq
          rfl
      refine ⟨trivial, hexec, fun u y hy => ?_, fun u v y z hy hz => ?_⟩
      · rw [hself u y hy]
        exact hidle.1
      · rw [hself u y hy, hself v z hz]
    · cases hexec
  | step t =>
    have hstep : σ.exec program (.step t) = some σ' ∧
        ∀ x k next, σ.txns t = some x → x.prog ≠ .tryLock k next := by
      unfold execAlone at hexec
      dsimp only at hexec
      split at hexec
      · cases hexec
      · next hother =>
        refine ⟨hexec, fun x k next hx hprog => ?_⟩
        obtain ⟨op, prog, writes⟩ := x
        dsimp only at hprog
        exact hother op k next writes (hprog ▸ hx)
    refine ⟨fun x k next hx hprog => absurd hprog (hstep.2 x k next hx), hstep.1, ?_⟩
    exact hkept hstep.1 fun _ _ => by simp
  | commit t =>
    refine ⟨fun τ hτ => .inr fun u y hu hy => ?_, hexec, hkept hexec fun _ _ => by simp⟩
    obtain ⟨x, -, hx, -⟩ := Sys.commit_cases hτ
    exact absurd (h.unique u t y x hy hx) hu
  | rollback t => exact ⟨trivial, hexec, hkept hexec fun _ _ => by simp⟩

/-- Transactions that are served one after another do not disturb one another. -/
theorem runs_of_alone {tids : List Tid} (actions : List (Action Op))
    (h : actions.foldlM (execAlone program tids) (Sys.init db) = some σ) :
    Runs program (Undisturbed program) (Sys.init db) σ :=
  Runs.of_fold (fun _ _ _ hone hexec => execAlone_undisturbed hone hexec) (init_oneRuns tids db)
    actions h

end Runs

end Munavvar.Isolation
