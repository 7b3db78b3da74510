import Munavvar.ReadCommitted

/-!
# What a transaction read first

A transaction often decides on a plain read and writes later. To say whether a
row was still as it was read, each statement is paired with the snapshot that
the first plain read of its transaction returned. The pairing changes nothing:
a run of the paired programs is a run of the programs and the other way round.
-/

namespace Munavvar.FirstRead

open Munavvar.Transaction
open Munavvar.Transaction.Prog
open Munavvar.ReadCommitted

/-- The same store with statements that carry what their transaction read first. -/
@[reducible] def recalling (S : Schema) : Schema :=
  { S with
    Stmt := fun k => Option S.State × S.Stmt k
    exec := fun k st => S.exec k st.2 }

variable {S : Schema} {α β : Type}

/-- Pair every statement with the first snapshot, if there was one. -/
def remember : Option S.State → Prog S α → Prog (recalling S) α
  | _, ret a => ret a
  | _, raise e => raise e
  | first, query next => query fun v => remember (first.or (some v)) (next v)
  | first, lock k next => lock k fun r => remember first (next r)
  | first, tryLock k next => tryLock k fun r => remember first (next r)
  | first, write k st next => write k (first, st) (remember first next)

/-! ## Rules -/

section Rules

variable {A : (k : S.Key) → Option S.State × S.Stmt k → Option (S.Row k) → Prop}
  {Q : α → S.State → Prop} {E : S.Err → Prop} {s : S.State}

/-- After the first read, its snapshot is known to every statement. -/
theorem wp_remember_some (v : S.State) (p : Prog S α)
    (h : wp (Regime.concurrentAssuming fun k st old => A k (some v, st) old) p Q E s) :
    wp (Regime.concurrentAssuming (S := recalling S) A) (remember (some v) p) Q E s := by
  induction p generalizing s with
  | ret a => exact h
  | raise e => exact h
  | query next ih => exact fun w hw => ih w (h w hw)
  | lock k next ih => exact ih _ h
  | tryLock k next ih => exact ⟨ih _ h.1, fun hskip => ih _ (h.2 hskip)⟩
  | write k st next ih =>
    rw [wp_write] at h
    rw [remember, wp_write]
    intro hassumed
    obtain ⟨-, hok, herr⟩ := h hassumed
    exact ⟨trivial, fun r hr => ih (hok r hr), herr⟩

/-- A transaction that begins with a plain read. -/
theorem wp_remember_ask {f : S.State → β} {g : β → Prog S α}
    (h : ∀ v, S.static v = S.static s →
      wp (Regime.concurrentAssuming (S := S) fun k st old => A k (some v, st) old) (g (f v)) Q E s) :
    wp (Regime.concurrentAssuming (S := recalling S) A) (remember none (ask f >>= g)) Q E s :=
  fun v hv => wp_remember_some (S := S) v (g (f v)) (h v hv)

/-- What holds without conditions on statements holds with them. -/
theorem wp_remember (first : Option S.State) (p : Prog S α) (h : wp Regime.concurrent p Q E s) :
    wp (Regime.concurrentAssuming (S := recalling S) A) (remember first p) Q E s := by
  induction p generalizing s first with
  | ret a => exact h
  | raise e => exact h
  | query next ih => exact fun w hw => ih w _ (h w hw)
  | lock k next ih => exact ih _ _ h
  | tryLock k next ih => exact ⟨ih _ _ h.1, fun hskip => ih _ _ (h.2 hskip)⟩
  | write k st next ih =>
    rw [wp_write] at h
    rw [remember, wp_write]
    intro _
    obtain ⟨-, hok, herr⟩ := h trivial
    exact ⟨trivial, fun r hr => ih _ (hok r hr), herr⟩

end Rules

/-! ## Forgetting the pairing -/

/-- The program without the snapshots. -/
def forget : Prog (recalling S) α → Prog S α
  | ret a => ret a
  | raise e => raise e
  | query next => query fun v => forget (next v)
  | lock k next => lock k fun r => forget (next r)
  | tryLock k next => tryLock k fun r => forget (next r)
  | write k st next => write k st.2 (forget next)

theorem forget_remember (first : Option S.State) (p : Prog S α) : forget (remember first p) = p := by
  induction p generalizing first with
  | ret a => rfl
  | raise e => rfl
  | query next ih => exact congrArg query (funext fun v => ih v _)
  | lock k next ih => exact congrArg (lock k) (funext fun r => ih r _)
  | tryLock k next ih => exact congrArg (tryLock k) (funext fun r => ih r _)
  | write k st next ih => exact congrArg (write k st) (ih _)

variable {Op : Type}

/-- A running transaction without the snapshots. -/
def forgetTxn (x : Txn (recalling S) Op) : Txn S Op :=
  ⟨x.op, forget x.prog, x.writes.map fun w => ⟨w.key, w.row⟩⟩

/-- The system without the snapshots. -/
def forgetSys (σ : Sys (recalling S) Op) : Sys S Op :=
  ⟨σ.db, σ.holder, fun t => (σ.txns t).map forgetTxn⟩

theorem view_forget (s : S.State) (writes : List (RowWrite (recalling S))) :
    view s (writes.map fun w => (⟨w.key, w.row⟩ : RowWrite S)) = view (S := recalling S) s writes := by
  induction writes using List.reverseRecOn with
  | nil => rfl
  | append_singleton writes w ih =>
    rw [List.map_append, List.map_singleton, view_concat, view_concat, ih]

theorem forgetSys_resume (σ : Sys (recalling S) Op) (t : Tid) (x : Txn (recalling S) Op)
    (holder : S.Key → Option Tid) :
    forgetSys (σ.resume t x holder) = (forgetSys σ).resume t (forgetTxn x) holder := by
  have htxns : (fun u => (Function.update σ.txns t (some x) u).map forgetTxn) =
      Function.update (fun u => (σ.txns u).map forgetTxn) t (some (forgetTxn x)) := by
    funext u
    by_cases hu : u = t
    · subst hu
      rw [Function.update_self, Function.update_self, Option.map_some]
    · rw [Function.update_of_ne hu, Function.update_of_ne hu]
  exact congrArg (Sys.mk (S := S) σ.db holder) htxns

theorem forgetSys_finish (σ : Sys (recalling S) Op) (t : Tid) (db : S.State) :
    forgetSys (σ.finish t db) = (forgetSys σ).finish t db := by
  have htxns : (fun u => (Function.update σ.txns t none u).map forgetTxn) =
      Function.update (fun u => (σ.txns u).map forgetTxn) t none := by
    funext u
    by_cases hu : u = t
    · subst hu
      rw [Function.update_self, Function.update_self, Option.map_none]
    · rw [Function.update_of_ne hu, Function.update_of_ne hu]
  exact congrArg (Sys.mk (S := S) db _) htxns

/-- One step of a program commutes with forgetting. -/
theorem stepTxn_forget (σ : Sys (recalling S) Op) (t : Tid) (x : Txn (recalling S) Op) :
    (σ.stepTxn t x).map forgetSys = (forgetSys σ).stepTxn t (forgetTxn x) := by
  obtain ⟨op, prog, writes⟩ := x
  have hview := view_forget (S := S) σ.db writes
  cases prog with
  | ret a => rfl
  | raise e => rfl
  | query next =>
    simp only [Sys.stepTxn, Option.map_some, forgetSys_resume, forgetTxn, forget]
    rw [← hview]
    rfl
  | lock k next =>
    simp only [Sys.stepTxn, forgetTxn, forget]
    by_cases hfree : σ.Free t k
    · have hfree' : (forgetSys σ).Free t k := hfree
      rw [if_pos hfree, if_pos hfree', Option.map_some, forgetSys_resume, ← hview]
      rfl
    · have hfree' : ¬ (forgetSys σ).Free t k := hfree
      rw [if_neg hfree, if_neg hfree', Option.map_none]
  | tryLock k next =>
    simp only [Sys.stepTxn, forgetTxn, forget]
    by_cases hfree : σ.Free t k
    · have hfree' : (forgetSys σ).Free t k := hfree
      rw [if_pos hfree, if_pos hfree', Option.map_some, forgetSys_resume, ← hview]
      rfl
    · have hfree' : ¬ (forgetSys σ).Free t k := hfree
      rw [if_neg hfree, if_neg hfree', Option.map_some, forgetSys_resume]
      rfl
  | write k st next =>
    simp only [Sys.stepTxn, forgetTxn, forget]
    by_cases hfree : σ.Free t k
    · have hfree' : (forgetSys σ).Free t k := hfree
      rw [if_pos hfree, if_pos hfree', ← hview]
      have hdb : (forgetSys σ).db = σ.db := rfl
      rw [hdb]
      cases S.exec k st.2 (S.get (view σ.db (writes.map fun w => ⟨w.key, w.row⟩)) k) with
      | ok r =>
        simp only [Option.map_some, forgetSys_resume, forgetTxn, List.map_append, List.map_singleton]
        rfl
      | error e =>
        simp only [Option.map_some, forgetSys_resume, forgetTxn, forget]
        rfl
    · have hfree' : ¬ (forgetSys σ).Free t k := hfree
      rw [if_neg hfree, if_neg hfree', Option.map_none]

/-- The programs whose statements carry what their transaction read first. -/
abbrev recalled (program : Op → Prog S Unit) (op : Op) : Prog (recalling S) Unit :=
  remember none (program op)

/-- One scheduling decision commutes with forgetting. -/
theorem exec_forget (program : Op → Prog S Unit) (σ : Sys (recalling S) Op) (a : Action Op) :
    (σ.exec (recalled program) a).map forgetSys = (forgetSys σ).exec program a := by
  cases a with
  | start t op =>
    have htxn : (forgetSys σ).txns t = (σ.txns t).map forgetTxn := rfl
    cases hx : σ.txns t with
    | none =>
      simp only [Sys.exec, htxn, hx, Option.map_none, Option.map_some, forgetSys_resume, forgetTxn,
        forget_remember, List.map_nil]
      rfl
    | some x => simp only [Sys.exec, htxn, hx, Option.map_none, Option.map_some]
  | step t =>
    have htxn : (forgetSys σ).txns t = (σ.txns t).map forgetTxn := rfl
    cases hx : σ.txns t with
    | none => simp only [Sys.exec, htxn, hx, Option.map_none, Option.bind_none]
    | some x =>
      have hstep := stepTxn_forget σ t x
      simp only [Sys.exec, htxn, hx, Option.map_some, Option.bind_some]
      exact hstep
  | commit t =>
    have htxn : (forgetSys σ).txns t = (σ.txns t).map forgetTxn := rfl
    cases hx : σ.txns t with
    | none => simp only [Sys.exec, htxn, hx, Option.map_none]
    | some x =>
      obtain ⟨op, prog, writes⟩ := x
      have hview := view_forget (S := S) σ.db writes
      cases prog with
      | ret u =>
        simp only [Sys.exec, htxn, hx, Option.map_some, forgetSys_finish, forgetTxn, forget]
        rw [← hview]
        rfl
      | _ => simp only [Sys.exec, htxn, hx, Option.map_some, Option.map_none, forgetTxn, forget]
  | rollback t =>
    have htxn : (forgetSys σ).txns t = (σ.txns t).map forgetTxn := rfl
    cases hx : σ.txns t with
    | none => simp only [Sys.exec, htxn, hx, Option.map_none]
    | some x =>
      simp only [Sys.exec, htxn, hx, Option.map_some, forgetSys_finish]
      rfl

/-- A run of the paired programs is a run of the programs. -/
theorem reach_forget {program : Op → Prog S Unit}
    {A : (k : S.Key) → Option S.State × S.Stmt k → Option (S.Row k) → Prop}
    {σ₀ σ : Sys (recalling S) Op} (h : Reach (recalled program) A σ₀ σ) :
    Reach program (fun _ _ _ => True) (forgetSys σ₀) (forgetSys σ) := by
  induction h with
  | init => exact .init
  | @next τ τ' a _ _ hexec ih =>
    have hstep := exec_forget program τ a
    rw [hexec, Option.map_some] at hstep
    refine ih.next a ?_ hstep.symm
    cases a with
    | step t => exact fun _ _ _ _ _ _ => trivial
    | _ => exact trivial

/-- Every run of the programs is one of the paired programs. -/
theorem reach_recalled {program : Op → Prog S Unit} {σ₀ : Sys (recalling S) Op} {τ : Sys S Op}
    (h : Reach program (fun _ _ _ => True) (forgetSys σ₀) τ) :
    ∃ σ, forgetSys σ = τ ∧ Reach (recalled program) (fun _ _ _ => True) σ₀ σ := by
  induction h with
  | init => exact ⟨σ₀, rfl, .init⟩
  | @next τ τ' a _ _ hexec ih =>
    obtain ⟨σ, rfl, hσ⟩ := ih
    have hstep := exec_forget program σ a
    rw [hexec] at hstep
    obtain ⟨σ', hσ', hforget⟩ := Option.map_eq_some_iff.mp hstep
    refine ⟨σ', hforget, hσ.next a ?_ hσ'⟩
    cases a with
    | step t => exact fun _ _ _ _ _ _ => trivial
    | _ => exact trivial

end Munavvar.FirstRead
