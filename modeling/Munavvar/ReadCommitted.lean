import Munavvar.Transaction
import Mathlib.Data.List.Induction
import Mathlib.Logic.Function.Basic

/-!
# Concurrent transactions under read committed isolation

Transactions run their programs one step at a time. A plain read returns what
is committed at that moment together with the transaction's own writes; a
locked row is current and stays so until its holder ends. A commit publishes
all writes at once. The main result reduces every interleaving to atomic
commits: the committed state moves only by programs that see current rows
under their locks and arbitrary snapshots elsewhere.
-/

namespace Munavvar.ReadCommitted

open Munavvar.Transaction
open Munavvar.Transaction.Prog

/-- Names of transactions. -/
abbrev Tid := ℕ

/-- A new content for one row, or its deletion. -/
structure RowWrite (S : Schema) where
  /-- The row's address. -/
  key : S.Key
  /-- The row it leaves. -/
  row : Option (S.Row key)

/-- A transaction in progress. -/
structure Txn (S : Schema) (Op : Type) where
  /-- The operation it was started for. -/
  op : Op
  /-- What is still to be executed. -/
  prog : Prog S Unit
  /-- Its own uncommitted writes, oldest first. -/
  writes : List (RowWrite S)

/-- The committed state with the locks and the running transactions. -/
structure Sys (S : Schema) (Op : Type) where
  /-- What is committed. -/
  db : S.State
  /-- The holder of each row lock. -/
  holder : S.Key → Option Tid
  /-- The running transactions. -/
  txns : Tid → Option (Txn S Op)

/-- What one scheduling decision does. -/
inductive Action (Op : Type)
  /-- Start a transaction for an operation. -/
  | start (t : Tid) (op : Op)
  /-- Execute the next step of a transaction. -/
  | step (t : Tid)
  /-- Publish the writes of a finished transaction. -/
  | commit (t : Tid)
  /-- End a transaction without effect: after an exception, a deadlock or a crash. -/
  | rollback (t : Tid)

variable {S : Schema} {Op : Type}

/-- A state overlaid with uncommitted writes. -/
def view (s : S.State) (writes : List (RowWrite S)) : S.State :=
  writes.foldl (fun s w => S.put s w.key w.row) s

@[simp] theorem view_nil (s : S.State) : view s [] = s := rfl

theorem view_concat (s : S.State) (writes : List (RowWrite S)) (w : RowWrite S) :
    view s (writes ++ [w]) = S.put (view s writes) w.key w.row := by
  rw [view, List.foldl_append, List.foldl_cons, List.foldl_nil, view]

theorem static_view (s : S.State) (writes : List (RowWrite S)) :
    S.static (view s writes) = S.static s := by
  induction writes using List.reverseRecOn with
  | nil => rfl
  | append_singleton writes w ih => rw [view_concat, S.static_put, ih]

/-- Own writes hide the same rows of every state that agrees on a key. -/
theorem get_view_congr {s s' : S.State} {k : S.Key} (h : S.get s' k = S.get s k)
    (writes : List (RowWrite S)) : S.get (view s' writes) k = S.get (view s writes) k := by
  induction writes using List.reverseRecOn with
  | nil => exact h
  | append_singleton writes w ih =>
    rw [view_concat, view_concat]
    by_cases hk : k = w.key
    · subst hk
      rw [S.get_put_self, S.get_put_self]
    · rw [S.get_put_ne _ _ _ _ hk, S.get_put_ne _ _ _ _ hk, ih]

/-- Writes to other keys leave a row as committed. -/
theorem get_view_of_not_mem (s : S.State) {k : S.Key} {writes : List (RowWrite S)}
    (h : ∀ w ∈ writes, w.key ≠ k) : S.get (view s writes) k = S.get s k := by
  induction writes using List.reverseRecOn with
  | nil => rfl
  | append_singleton writes w ih =>
    rw [view_concat, S.get_put_ne _ _ _ _ (h w (by simp)).symm]
    exact ih fun v hv => h v (List.mem_append_left _ hv)

namespace Sys

/-- A lock can be taken by a transaction when it is free or its own. -/
def Free (σ : Sys S Op) (t : Tid) (k : S.Key) : Prop := σ.holder k = none ∨ σ.holder k = some t

instance (σ : Sys S Op) (t : Tid) (k : S.Key) : Decidable (σ.Free t k) := by
  unfold Free
  infer_instance

/-- Give a lock to a transaction. -/
def acquire (σ : Sys S Op) (t : Tid) (k : S.Key) : S.Key → Option Tid :=
  Function.update σ.holder k (some t)

/-- The locks without those of an ended transaction. -/
def release (σ : Sys S Op) (t : Tid) (k : S.Key) : Option Tid :=
  if σ.holder k = some t then none else σ.holder k

/-- Continue a transaction with another program, more locks and more writes. -/
def resume (σ : Sys S Op) (t : Tid) (x : Txn S Op) (holder : S.Key → Option Tid) : Sys S Op where
  db := σ.db
  holder := holder
  txns := Function.update σ.txns t (some x)

/-- Remove a transaction and its locks. -/
def finish (σ : Sys S Op) (t : Tid) (db : S.State) : Sys S Op where
  db := db
  holder := σ.release t
  txns := Function.update σ.txns t none

/-- One step of the program of a running transaction; a step that has to wait
for a lock is not taken. -/
def stepTxn (σ : Sys S Op) (t : Tid) (x : Txn S Op) : Option (Sys S Op) :=
  match x.prog with
  | .ret _ => none
  | .raise _ => none
  | .query next =>
    some (σ.resume t { x with prog := next (view σ.db x.writes) } σ.holder)
  | .lock k next =>
    if σ.Free t k then
      some (σ.resume t { x with prog := next (S.get (view σ.db x.writes) k) } (σ.acquire t k))
    else none
  | .tryLock k next =>
    if σ.Free t k then
      some (σ.resume t { x with prog := next (some (S.get (view σ.db x.writes) k)) }
        (σ.acquire t k))
    else
      some (σ.resume t { x with prog := next none } σ.holder)
  | .write k st next =>
    if σ.Free t k then
      match S.exec k st (S.get (view σ.db x.writes) k) with
      | .ok r =>
        some (σ.resume t { x with prog := next, writes := x.writes ++ [⟨k, r⟩] } (σ.acquire t k))
      | .error e => some (σ.resume t { x with prog := .raise e } (σ.acquire t k))
    else none

/-- The effect of one scheduling decision, if it is possible. -/
def exec (program : Op → Prog S Unit) (σ : Sys S Op) : Action Op → Option (Sys S Op)
  | .start t op =>
    match σ.txns t with
    | none => some (σ.resume t ⟨op, program op, []⟩ σ.holder)
    | some _ => none
  | .step t => (σ.txns t).bind fun x => σ.stepTxn t x
  | .commit t =>
    match σ.txns t with
    | some ⟨_, .ret _, writes⟩ => some (σ.finish t (view σ.db writes))
    | _ => none
  | .rollback t => (σ.txns t).map fun _ => σ.finish t σ.db

/-- No transaction runs and no lock is held. -/
def Idle (σ : Sys S Op) : Prop := (∀ k, σ.holder k = none) ∧ ∀ t, σ.txns t = none

/-- The system before the first transaction. -/
def init (db : S.State) : Sys S Op := ⟨db, fun _ => none, fun _ => none⟩

/-- The statement a transaction is about to execute satisfies a condition on
its row as the statement will find it. -/
def StatementOk (assumes : (k : S.Key) → S.Stmt k → Option (S.Row k) → Prop) (σ : Sys S Op) :
    Action Op → Prop
  | .step t =>
    ∀ x k st next, σ.txns t = some x → x.prog = .write k st next →
      assumes k st (S.get (view σ.db x.writes) k)
  | _ => True

end Sys

/-- Runs of the system: any scheduling decisions, one after another, each of
which satisfies a condition. -/
inductive Reach (program : Op → Prog S Unit)
    (assumes : (k : S.Key) → S.Stmt k → Option (S.Row k) → Prop) (σ₀ : Sys S Op) :
    Sys S Op → Prop
  /-- The start of a run. -/
  | init : Reach program assumes σ₀ σ₀
  /-- One more decision. -/
  | next {σ σ' : Sys S Op} (a : Action Op) :
    Reach program assumes σ₀ σ → σ.StatementOk assumes a → σ.exec program a = some σ' →
    Reach program assumes σ₀ σ'

/-- Decisions that a checked execution carries out one after another are a run. -/
theorem Reach.of_fold {program : Op → Prog S Unit}
    {assumes : (k : S.Key) → S.Stmt k → Option (S.Row k) → Prop}
    {exec : Sys S Op → Action Op → Option (Sys S Op)}
    (hexec : ∀ τ a τ', exec τ a = some τ' →
      τ.StatementOk assumes a ∧ τ.exec program a = some τ')
    {σ₀ σ : Sys S Op} (actions : List (Action Op)) (h : actions.foldlM exec σ₀ = some σ) :
    Reach program assumes σ₀ σ := by
  have hrun : ∀ (actions : List (Action Op)) (τ : Sys S Op),
      Reach program assumes σ₀ τ → actions.foldlM exec τ = some σ →
      Reach program assumes σ₀ σ := by
    intro actions
    induction actions with
    | nil =>
      intro τ hτ hfold
      cases hfold
      exact hτ
    | cons a actions ih =>
      intro τ hτ hfold
      obtain ⟨τ', hstep, hfold⟩ := Option.bind_eq_some_iff.mp hfold
      obtain ⟨hok, hstep⟩ := hexec τ a τ' hstep
      exact ih τ' (hτ.next a hok hstep) hfold
  exact hrun actions σ₀ .init h

/-- Scheduling decisions carried out one after another are a run. -/
theorem Reach.of_actions {program : Op → Prog S Unit} {σ₀ σ : Sys S Op} (actions : List (Action Op))
    (h : actions.foldlM (Sys.exec program) σ₀ = some σ) :
    Reach program (fun _ _ _ => True) σ₀ σ := by
  refine Reach.of_fold (fun τ a τ' hexec => ⟨?_, hexec⟩) actions h
  cases a with
  | step t => exact fun _ _ _ _ _ _ => trivial
  | _ => exact trivial

/-- Execute a decision if its statement is in order. -/
def Sys.execIf (program : Op → Prog S Unit) (ok : (k : S.Key) → S.Stmt k → Option (S.Row k) → Bool)
    (σ : Sys S Op) (a : Action Op) : Option (Sys S Op) :=
  match a with
  | .step t =>
    match σ.txns t with
    | some ⟨_, .write k st _, writes⟩ =>
      if ok k st (S.get (view σ.db writes) k) then σ.exec program a else none
    | _ => σ.exec program a
  | _ => σ.exec program a

/-- Decisions whose statements were checked are a run. -/
theorem Reach.of_checked {program : Op → Prog S Unit}
    {ok : (k : S.Key) → S.Stmt k → Option (S.Row k) → Bool} {σ₀ σ : Sys S Op}
    (actions : List (Action Op)) (h : actions.foldlM (Sys.execIf program ok) σ₀ = some σ) :
    Reach program (fun k st old => ok k st old = true) σ₀ σ := by
  refine Reach.of_fold (fun τ a τ' hexec => ?_) actions h
  cases a with
  | step t =>
    unfold Sys.execIf at hexec
    dsimp only at hexec
    split at hexec
    · next op k st next writes htxn =>
      split at hexec
      · next hok =>
        refine ⟨fun x k' st' next' hx hprog => ?_, hexec⟩
        rw [htxn, Option.some.injEq] at hx
        subst hx
        cases hprog
        exact hok
      · cases hexec
    · next hnot =>
      refine ⟨fun x k st next hx hprog => ?_, hexec⟩
      obtain ⟨op, prog, writes⟩ := x
      dsimp only at hprog
      exact absurd (hprog ▸ hx) (hnot op k st next writes)
  | _ => exact ⟨trivial, hexec⟩

/-- How a program can have come to its present step in a state in which it
holds some locks: locked rows were read as they are now, plain reads returned anything. -/
inductive Explains (assumes : (k : S.Key) → S.Stmt k → Option (S.Row k) → Prop)
    (held : S.Key → Prop) (s : S.State) (p : Prog S Unit) :
    Prog S Unit → List (RowWrite S) → Prop
  /-- Nothing was executed. -/
  | start : Explains assumes held s p p []
  /-- A plain read returned some snapshot. -/
  | query {next writes} (v : S.State) :
    Explains assumes held s p (.query next) writes → S.static v = S.static s →
    Explains assumes held s p (next v) writes
  /-- A row was locked. -/
  | lock {k next writes} :
    Explains assumes held s p (.lock k next) writes → held k →
    Explains assumes held s p (next (S.get (view s writes) k)) writes
  /-- A row was free and locked. -/
  | tryLock {k next writes} :
    Explains assumes held s p (.tryLock k next) writes → held k →
    Explains assumes held s p (next (some (S.get (view s writes) k))) writes
  /-- A row was skipped. -/
  | skip {k next writes} :
    Explains assumes held s p (.tryLock k next) writes →
    Explains assumes held s p (next none) writes
  /-- A statement was executed. -/
  | write {k st next writes r} :
    Explains assumes held s p (.write k st next) writes → held k →
    assumes k st (S.get (view s writes) k) →
    S.exec k st (S.get (view s writes) k) = .ok r →
    Explains assumes held s p next (writes ++ [⟨k, r⟩])
  /-- A statement failed. -/
  | fail {k st next writes e} :
    Explains assumes held s p (.write k st next) writes → held k →
    assumes k st (S.get (view s writes) k) →
    S.exec k st (S.get (view s writes) k) = .error e →
    Explains assumes held s p (.raise e) writes

section Reduction

variable {assumes : (k : S.Key) → S.Stmt k → Option (S.Row k) → Prop} {held held' : S.Key → Prop}
  {s s' : S.State} {p q : Prog S Unit} {writes : List (RowWrite S)}

/-- An explanation survives every change outside the locked rows. -/
theorem Explains.stable (h : Explains assumes held s p q writes)
    (hheld : ∀ k, held k → held' k) (hrow : ∀ k, held k → S.get s' k = S.get s k)
    (hstatic : S.static s' = S.static s) : Explains assumes held' s' p q writes := by
  induction h with
  | start => exact .start
  | query v _ hv ih => exact .query v ih (hv.trans hstatic.symm)
  | lock _ hk ih =>
    rw [← get_view_congr (hrow _ hk)]
    exact .lock ih (hheld _ hk)
  | tryLock _ hk ih =>
    rw [← get_view_congr (hrow _ hk)]
    exact .tryLock ih (hheld _ hk)
  | skip _ ih => exact .skip ih
  | write _ hk ha hx ih =>
    rw [← get_view_congr (hrow _ hk)] at ha hx
    exact .write ih (hheld _ hk) ha hx
  | fail _ hk ha hx ih =>
    rw [← get_view_congr (hrow _ hk)] at ha hx
    exact .fail ih (hheld _ hk) ha hx

/-- Writes go to locked rows only. -/
theorem Explains.writes_held (h : Explains assumes held s p q writes) :
    ∀ w ∈ writes, held w.key := by
  induction h with
  | start => exact fun w hw => absurd hw List.not_mem_nil
  | query _ _ _ ih => exact ih
  | lock _ _ ih => exact ih
  | tryLock _ _ ih => exact ih
  | skip _ ih => exact ih
  | write _ hk _ _ ih =>
    intro w hw
    rcases List.mem_append.mp hw with hw | hw
    · exact ih w hw
    · rw [List.mem_singleton.mp hw]
      exact hk
  | fail _ _ _ _ ih => exact ih

/-- The weakest precondition travels along an explanation. -/
theorem Explains.wp {Q : Unit → S.State → Prop} {E : S.Err → Prop}
    (h : Explains assumes held s p q writes)
    (hp : wp (Regime.concurrentAssuming assumes) p Q E s) :
    Transaction.wp (Regime.concurrentAssuming assumes) q Q E (view s writes) := by
  induction h with
  | start => exact hp
  | query v _ hv ih => exact ih v (hv.trans (static_view s _).symm)
  | lock _ _ ih => exact ih
  | tryLock _ _ ih => exact ih.1
  | skip _ ih => exact ih.2 trivial
  | write _ _ ha hx ih =>
    obtain ⟨-, ih⟩ := ih ha
    rw [hx] at ih
    rw [view_concat]
    exact ih
  | fail _ _ ha hx ih =>
    obtain ⟨-, ih⟩ := ih ha
    rw [hx] at ih
    exact ih

end Reduction

namespace Sys

/-- Every running transaction is explained by the committed state and its locks. -/
def Explained (program : Op → Prog S Unit)
    (assumes : (k : S.Key) → S.Stmt k → Option (S.Row k) → Prop) (σ : Sys S Op) : Prop :=
  ∀ t x, σ.txns t = some x →
    Explains assumes (fun k => σ.holder k = some t) σ.db (program x.op) x.prog x.writes

variable {program : Op → Prog S Unit}
  {assumes : (k : S.Key) → S.Stmt k → Option (S.Row k) → Prop} {σ σ' : Sys S Op} {t : Tid}

theorem init_explained (db : S.State) : (init db : Sys S Op).Explained program assumes := by
  intro t x hx
  exact absurd hx (by simp [init])

/-- A new lock is taken from nobody. -/
theorem acquire_of_ne {k j : S.Key} {u : Tid} (hfree : σ.Free t k) (hu : u ≠ t)
    (hj : σ.holder j = some u) : σ.acquire t k j = some u := by
  by_cases hjk : j = k
  · subst hjk
    rcases hfree with h | h
    · rw [h] at hj
      exact absurd hj (by simp)
    · rw [h] at hj
      exact absurd (Option.some.inj hj).symm hu
  · rw [acquire, Function.update_of_ne hjk, hj]

theorem acquire_self (k : S.Key) : σ.acquire t k k = some t := Function.update_self k _ _

theorem acquire_of_held {k j : S.Key} (hj : σ.holder j = some t) : σ.acquire t k j = some t := by
  by_cases hjk : j = k
  · rw [hjk, acquire_self]
  · rw [acquire, Function.update_of_ne hjk, hj]

/-- The other transactions keep their locks. -/
theorem acquire_others {u : Tid} {k : S.Key} (hfree : σ.Free t k) (hu : u ≠ t) (j : S.Key) :
    σ.acquire t k j = some u ↔ σ.holder j = some u := by
  constructor
  · intro hj
    by_cases hjk : j = k
    · subst hjk
      rw [acquire_self, Option.some.injEq] at hj
      exact absurd hj.symm hu
    · rwa [acquire, Function.update_of_ne hjk] at hj
  · exact acquire_of_ne hfree hu

/-- An ended transaction takes no lock of the others with it. -/
theorem release_others {u : Tid} (hu : u ≠ t) (k : S.Key) :
    σ.release t k = some u ↔ σ.holder k = some u := by
  unfold release
  split
  · next hk => simp [hk, Ne.symm hu]
  · exact Iff.rfl

theorem release_self (k : S.Key) : σ.release t k ≠ some t := by
  unfold release
  split
  · exact nofun
  · next hk => exact hk

/-- Who is underway after a resumption is the resumed transaction or was underway. -/
theorem resume_cases {x y : Txn S Op} {holder : S.Key → Option Tid} {u : Tid}
    (hy : (σ.resume t x holder).txns u = some y) : u = t ∧ y = x ∨ u ≠ t ∧ σ.txns u = some y := by
  dsimp only [resume] at hy
  by_cases hu : u = t
  · rw [hu, Function.update_self, Option.some.injEq] at hy
    exact .inl ⟨hu, hy.symm⟩
  · rw [Function.update_of_ne hu] at hy
    exact .inr ⟨hu, hy⟩

/-- Who is underway after the end of a transaction is another one. -/
theorem finish_cases {db : S.State} {y : Txn S Op} {u : Tid}
    (hy : (σ.finish t db).txns u = some y) : u ≠ t ∧ σ.txns u = some y := by
  dsimp only [finish] at hy
  by_cases hu : u = t
  · rw [hu, Function.update_self] at hy
    cases hy
  · rw [Function.update_of_ne hu] at hy
    exact ⟨hu, hy⟩

/-- What one statement of a transaction makes of it and of the locks. -/
inductive Steps (σ : Sys S Op) (t : Tid) :
    Txn S Op → Txn S Op → (S.Key → Option Tid) → Prop
  /-- A plain read sees the committed state and the transaction's own writes. -/
  | query {op : Op} {next : S.State → Prog S Unit} {writes : List (RowWrite S)} :
    Steps σ t ⟨op, .query next, writes⟩ ⟨op, next (view σ.db writes), writes⟩ σ.holder
  /-- A row is locked and read. -/
  | lock {op : Op} {k : S.Key} {next : Option (S.Row k) → Prog S Unit}
    {writes : List (RowWrite S)} (hfree : σ.Free t k) :
    Steps σ t ⟨op, .lock k next, writes⟩ ⟨op, next (S.get (view σ.db writes) k), writes⟩
      (σ.acquire t k)
  /-- A row that nobody has locked is locked and read. -/
  | tryLock {op : Op} {k : S.Key} {next : Option (Option (S.Row k)) → Prog S Unit}
    {writes : List (RowWrite S)} (hfree : σ.Free t k) :
    Steps σ t ⟨op, .tryLock k next, writes⟩
      ⟨op, next (some (S.get (view σ.db writes) k)), writes⟩ (σ.acquire t k)
  /-- A row that another transaction has locked is skipped. -/
  | skip {op : Op} {k : S.Key} {next : Option (Option (S.Row k)) → Prog S Unit}
    {writes : List (RowWrite S)} (hheld : ¬σ.Free t k) :
    Steps σ t ⟨op, .tryLock k next, writes⟩ ⟨op, next none, writes⟩ σ.holder
  /-- A statement changes a row. -/
  | write {op : Op} {k : S.Key} {st : S.Stmt k} {next : Prog S Unit}
    {writes : List (RowWrite S)} {r : Option (S.Row k)} (hfree : σ.Free t k)
    (hexec : S.exec k st (S.get (view σ.db writes) k) = .ok r) :
    Steps σ t ⟨op, .write k st next, writes⟩ ⟨op, next, writes ++ [⟨k, r⟩]⟩ (σ.acquire t k)
  /-- A statement is rejected. -/
  | fail {op : Op} {k : S.Key} {st : S.Stmt k} {next : Prog S Unit}
    {writes : List (RowWrite S)} {e : S.Err} (hfree : σ.Free t k)
    (hexec : S.exec k st (S.get (view σ.db writes) k) = .error e) :
    Steps σ t ⟨op, .write k st next, writes⟩ ⟨op, .raise e, writes⟩ (σ.acquire t k)

/-- A program step is one of these. -/
theorem stepTxn_steps {x : Txn S Op} (hstep : σ.stepTxn t x = some σ') :
    ∃ y holder, σ' = σ.resume t y holder ∧ σ.Steps t x y holder := by
  obtain ⟨op, prog, writes⟩ := x
  cases prog with
  | ret a => cases hstep
  | raise e => cases hstep
  | query next =>
    cases hstep
    exact ⟨_, _, rfl, .query⟩
  | lock k next =>
    dsimp only [stepTxn] at hstep
    split at hstep
    · next hfree =>
      cases hstep
      exact ⟨_, _, rfl, .lock hfree⟩
    · cases hstep
  | tryLock k next =>
    dsimp only [stepTxn] at hstep
    split at hstep
    · next hfree =>
      cases hstep
      exact ⟨_, _, rfl, .tryLock hfree⟩
    · next hheld =>
      cases hstep
      exact ⟨_, _, rfl, .skip hheld⟩
  | write k st next =>
    dsimp only [stepTxn] at hstep
    split at hstep
    · next hfree =>
      split at hstep
      · next r hr =>
        cases hstep
        exact ⟨_, _, rfl, .write hfree hr⟩
      · next e he =>
        cases hstep
        exact ⟨_, _, rfl, .fail hfree he⟩
    · cases hstep

/-- A step takes at most one lock, which was free. -/
theorem Steps.holder_cases {x y : Txn S Op} {holder : S.Key → Option Tid}
    (h : σ.Steps t x y holder) : holder = σ.holder ∨ ∃ k, σ.Free t k ∧ holder = σ.acquire t k := by
  cases h with
  | query => exact .inl rfl
  | skip _ => exact .inl rfl
  | lock hfree => exact .inr ⟨_, hfree, rfl⟩
  | tryLock hfree => exact .inr ⟨_, hfree, rfl⟩
  | write hfree _ => exact .inr ⟨_, hfree, rfl⟩
  | fail hfree _ => exact .inr ⟨_, hfree, rfl⟩

/-- A step leaves the locks of the others. -/
theorem Steps.others {x y : Txn S Op} {holder : S.Key → Option Tid} (h : σ.Steps t x y holder)
    {u : Tid} (hu : u ≠ t) (k : S.Key) : holder k = some u ↔ σ.holder k = some u := by
  rcases h.holder_cases with hsame | ⟨j, hfree, hsame⟩
  · rw [hsame]
  · rw [hsame]
    exact acquire_others hfree hu k

/-- A step goes on with the same operation. -/
theorem Steps.op_eq {x y : Txn S Op} {holder : S.Key → Option Tid} (h : σ.Steps t x y holder) :
    y.op = x.op := by
  cases h <;> rfl

/-- A started transaction has its whole program before it. -/
theorem start_cases {op : Op} (hexec : σ.exec program (.start t op) = some σ') :
    σ.txns t = none ∧ σ' = σ.resume t ⟨op, program op, []⟩ σ.holder := by
  dsimp only [exec] at hexec
  split at hexec
  · next hnone =>
    cases hexec
    exact ⟨hnone, rfl⟩
  · cases hexec

/-- A scheduled transaction takes a step. -/
theorem step_cases (hexec : σ.exec program (.step t) = some σ') :
    ∃ x y holder, σ.txns t = some x ∧ σ' = σ.resume t y holder ∧ σ.Steps t x y holder := by
  obtain ⟨x, hx, hstep⟩ := Option.bind_eq_some_iff.mp hexec
  obtain ⟨y, holder, hσ, hsteps⟩ := stepTxn_steps hstep
  exact ⟨x, y, holder, hx, hσ, hsteps⟩

/-- A commit publishes the writes of a transaction that has nothing left to execute. -/
theorem commit_cases (hexec : σ.exec program (.commit t) = some σ') :
    ∃ x u, σ.txns t = some x ∧ x.prog = .ret u ∧ σ' = σ.finish t (view σ.db x.writes) := by
  dsimp only [exec] at hexec
  split at hexec
  · next op u writes hx =>
    cases hexec
    exact ⟨_, u, hx, rfl, rfl⟩
  · cases hexec

/-- A transaction that is rolled back leaves the committed state. -/
theorem rollback_cases (hexec : σ.exec program (.rollback t) = some σ') :
    ∃ x, σ.txns t = some x ∧ σ' = σ.finish t σ.db := by
  obtain ⟨x, hx, rfl⟩ := Option.map_eq_some_iff.mp hexec
  exact ⟨x, hx, rfl⟩

/-- Continuing one transaction keeps the others explained. -/
theorem Explained.resume {x : Txn S Op} {holder : S.Key → Option Tid}
    (h : σ.Explained program assumes)
    (hx : Explains assumes (fun k => holder k = some t) σ.db (program x.op) x.prog x.writes)
    (hothers : ∀ u k, u ≠ t → σ.holder k = some u → holder k = some u) :
    (σ.resume t x holder).Explained program assumes := by
  intro u y hy
  rcases resume_cases hy with ⟨rfl, rfl⟩ | ⟨hu, hy⟩
  · exact hx
  · exact (h u y hy).stable (fun k => hothers u k hu) (fun _ _ => rfl) rfl

/-- Ending one transaction keeps the others explained when their rows stay. -/
theorem Explained.finish {db : S.State} (h : σ.Explained program assumes)
    (hrow : ∀ k, σ.holder k ≠ some t → S.get db k = S.get σ.db k)
    (hstatic : S.static db = S.static σ.db) : (σ.finish t db).Explained program assumes := by
  intro u y hy
  obtain ⟨hu, hy⟩ := finish_cases hy
  have hne : ∀ k, σ.holder k = some u → σ.holder k ≠ some t := fun k hk hk' =>
    hu (Option.some.inj (hk.symm.trans hk'))
  exact (h u y hy).stable (fun k => (release_others hu k).mpr)
    (fun k hk => hrow k (hne k hk)) hstatic

/-- A program step keeps every transaction explained. -/
theorem Steps.explained {x y : Txn S Op} {holder : S.Key → Option Tid}
    (hsteps : σ.Steps t x y holder) (h : σ.Explained program assumes) (hx : σ.txns t = some x)
    (hok : ∀ k st next, x.prog = .write k st next → assumes k st (S.get (view σ.db x.writes) k)) :
    (σ.resume t y holder).Explained program assumes := by
  have hexp := h t x hx
  have hothers : ∀ u k, u ≠ t → σ.holder k = some u → holder k = some u :=
    fun u k hu => (hsteps.others hu k).mpr
  have hmore : ∀ {k prog}, Explains assumes (fun j => σ.holder j = some t) σ.db (program x.op)
        prog x.writes →
      Explains assumes (fun j => σ.acquire t k j = some t) σ.db (program x.op) prog x.writes :=
    fun he => he.stable (fun j => acquire_of_held) (fun _ _ => rfl) rfl
  cases hsteps with
  | query => exact h.resume (.query _ hexp (static_view σ.db _)) hothers
  | lock hfree => exact h.resume (.lock (hmore hexp) (acquire_self _)) hothers
  | tryLock hfree => exact h.resume (.tryLock (hmore hexp) (acquire_self _)) hothers
  | skip hheld => exact h.resume (.skip hexp) hothers
  | write hfree hr =>
    exact h.resume (.write (hmore hexp) (acquire_self _) (hok _ _ _ rfl) hr) hothers
  | fail hfree he =>
    exact h.resume (.fail (hmore hexp) (acquire_self _) (hok _ _ _ rfl) he) hothers

/-- What one scheduling decision can do to the committed state: nothing, or
publish the writes of an explained transaction that has finished. -/
theorem exec_explained {a : Action Op} (h : σ.Explained program assumes)
    (hok : σ.StatementOk assumes a) (hexec : σ.exec program a = some σ') :
    σ'.Explained program assumes ∧
      (σ'.db = σ.db ∨
        ∃ t op u writes held, a = .commit t ∧ σ'.db = view σ.db writes ∧
          Explains assumes held σ.db (program op) (.ret u) writes) := by
  cases a with
  | start t op =>
    obtain ⟨-, rfl⟩ := start_cases hexec
    exact ⟨h.resume .start fun _ _ _ hk => hk, .inl rfl⟩
  | step t =>
    obtain ⟨x, y, holder, hx, rfl, hsteps⟩ := step_cases hexec
    exact ⟨hsteps.explained h hx fun k st next hp => hok x k st next hx hp, .inl rfl⟩
  | commit t =>
    obtain ⟨x, u, hx, hret, rfl⟩ := commit_cases hexec
    have hexp := h t x hx
    rw [hret] at hexp
    refine ⟨h.finish (fun k hk => ?_) (static_view σ.db x.writes),
      .inr ⟨t, x.op, u, x.writes, _, rfl, rfl, hexp⟩⟩
    exact get_view_of_not_mem σ.db fun w hw hwk => hk (hwk ▸ hexp.writes_held w hw)
  | rollback t =>
    obtain ⟨x, -, rfl⟩ := rollback_cases hexec
    exact ⟨h.finish (fun _ _ => rfl) rfl, .inl rfl⟩

/-- Whatever is decided but a commit, the committed state stays. -/
theorem db_of_not_commit {a : Action Op} (ha : ∀ t, a ≠ .commit t)
    (hexec : σ.exec program a = some σ') : σ'.db = σ.db := by
  cases a with
  | start t op =>
    obtain ⟨-, rfl⟩ := start_cases hexec
    rfl
  | step t =>
    obtain ⟨x, y, holder, -, rfl, -⟩ := step_cases hexec
    rfl
  | commit t => exact absurd rfl (ha t)
  | rollback t =>
    obtain ⟨x, -, rfl⟩ := rollback_cases hexec
    rfl

/-- The operations in progress are those that were and the one that is started. -/
theorem exec_op {a : Action Op} (hexec : σ.exec program a = some σ') {u : Tid} {x : Txn S Op}
    (hx : σ'.txns u = some x) : (∃ y, σ.txns u = some y ∧ y.op = x.op) ∨ a = .start u x.op := by
  cases a with
  | start t op =>
    obtain ⟨-, rfl⟩ := start_cases hexec
    rcases resume_cases hx with ⟨rfl, rfl⟩ | ⟨-, hx⟩
    · exact .inr rfl
    · exact .inl ⟨x, hx, rfl⟩
  | step t =>
    obtain ⟨y, z, holder, hy, rfl, hsteps⟩ := step_cases hexec
    rcases resume_cases hx with ⟨rfl, rfl⟩ | ⟨-, hx⟩
    · exact .inl ⟨y, hy, hsteps.op_eq.symm⟩
    · exact .inl ⟨x, hx, rfl⟩
  | commit t =>
    obtain ⟨y, v, -, -, rfl⟩ := commit_cases hexec
    exact .inl ⟨x, (finish_cases hx).2, rfl⟩
  | rollback t =>
    obtain ⟨y, -, rfl⟩ := rollback_cases hexec
    exact .inl ⟨x, (finish_cases hx).2, rfl⟩

/-- Every operation in progress was started. -/
theorem started_of_actions {actions : List (Action Op)} {db : S.State}
    (h : actions.foldlM (exec program) (Sys.init db) = some σ) {u : Tid} {x : Txn S Op}
    (hx : σ.txns u = some x) : .start u x.op ∈ actions := by
  have hrun : ∀ (actions : List (Action Op)) (τ : Sys S Op),
      actions.foldlM (exec program) τ = some σ →
      (∃ y, τ.txns u = some y ∧ y.op = x.op) ∨ .start u x.op ∈ actions := by
    intro actions
    induction actions with
    | nil =>
      intro τ hfold
      cases hfold
      exact .inl ⟨x, hx, rfl⟩
    | cons a actions ih =>
      intro τ hfold
      obtain ⟨τ', hstep, hfold⟩ := Option.bind_eq_some_iff.mp hfold
      rcases ih τ' hfold with ⟨y, hy, hop⟩ | hmem
      · rcases exec_op hstep hy with ⟨z, hz, hop'⟩ | ha
        · exact .inl ⟨z, hz, hop'.trans hop⟩
        · exact .inr (by rw [ha, hop]; exact List.mem_cons_self)
      · exact .inr (List.mem_cons_of_mem _ hmem)
  rcases hrun actions _ h with ⟨y, hy, -⟩ | hmem
  · cases hy
  · exact hmem

/-- A transaction that has raised an exception can only end without effect. -/
theorem raised_unchanged {x : Txn S Op} {e : S.Err} {a : Action Op} (hx : σ.txns t = some x)
    (hraise : x.prog = .raise e) (ha : a = .step t ∨ a = .commit t ∨ a = .rollback t)
    (hexec : σ.exec program a = some σ') : σ'.db = σ.db := by
  obtain ⟨op, prog, writes⟩ := x
  subst hraise
  rcases ha with rfl | rfl | rfl
  · exact absurd hexec (by simp [exec, stepTxn, hx])
  · exact absurd hexec (by simp [exec, hx])
  · rw [exec, hx, Option.map_some, Option.some.injEq] at hexec
    rw [← hexec]
    rfl

end Sys

section Invariants

variable {program : Op → Prog S Unit}
  {assumes : (k : S.Key) → S.Stmt k → Option (S.Row k) → Prop} {σ₀ σ σ' : Sys S Op}

theorem Reach.explained (h : Reach program assumes σ₀ σ) (h₀ : σ₀.Explained program assumes) :
    σ.Explained program assumes := by
  induction h with
  | init => exact h₀
  | next a _ hok hexec ih => exact (Sys.exec_explained ih hok hexec).1

/-- Every decision of a run moves the committed state as one atomic operation
does, if it moves it at all. -/
theorem Reach.committed {I : S.State → Prop} {T : S.State → S.State → Prop}
    (hrefl : ∀ s, T s s)
    (hop : ∀ op s, I s →
      wp (Regime.concurrentAssuming assumes) (program op) (fun _ s' => I s' ∧ T s s')
        (fun _ => True) s)
    (h : Reach program assumes σ₀ σ) (h₀ : σ₀.Explained program assumes) (hinv : I σ₀.db) :
    I σ.db ∧ ∀ a σ', σ.StatementOk assumes a → σ.exec program a = some σ' → T σ.db σ'.db := by
  have hstep : ∀ {σ : Sys S Op} {a σ'}, σ.Explained program assumes → I σ.db →
      σ.StatementOk assumes a → σ.exec program a = some σ' → I σ'.db ∧ T σ.db σ'.db := by
    intro σ a σ' hexp hinv hok hexec
    rcases (Sys.exec_explained hexp hok hexec).2 with hdb | ⟨t, op, u, writes, held, -, hdb, hret⟩
    · rw [hdb]
      exact ⟨hinv, hrefl _⟩
    · rw [hdb]
      exact hret.wp (hop op σ.db hinv)
  have hreach : I σ.db := by
    induction h with
    | init => exact hinv
    | next a hprev hok hexec ih => exact (hstep (hprev.explained h₀) ih hok hexec).1
  exact ⟨hreach, fun a σ' hok hexec => (hstep (h.explained h₀) hreach hok hexec).2⟩

/-- The invariant rule: what every operation keeps as one atomic commit holds
in every committed state of every interleaving. -/
theorem Reach.invariant {I : S.State → Prop} {db : S.State}
    (hop : ∀ op s, I s →
      wp (Regime.concurrentAssuming assumes) (program op) (fun _ s' => I s') (fun _ => True) s)
    (h : Reach program assumes (Sys.init db) σ) (hinv : I db) : I σ.db :=
  (h.committed (T := fun _ _ => True) (fun _ => trivial)
    (fun op s hs => wp_mono _ (hop op s hs) (fun _ _ hs' => ⟨hs', trivial⟩) fun _ he => he)
    (Sys.init_explained db) hinv).1

/-- A commit has the effect of its operation on the state that was committed before. -/
theorem Reach.commit {t : Tid} {x : Txn S Op} {Q : Unit → S.State → Prop} {E : S.Err → Prop}
    (h : Reach program assumes σ₀ σ) (h₀ : σ₀.Explained program assumes) (hx : σ.txns t = some x)
    (hop : wp (Regime.concurrentAssuming assumes) (program x.op) Q E σ.db)
    (hexec : σ.exec program (.commit t) = some σ') : Q () σ'.db := by
  have hexp := h.explained h₀ t x hx
  obtain ⟨op, prog, writes⟩ := x
  rw [Sys.exec, hx] at hexec
  cases prog with
  | ret u =>
    cases hexec
    exact hexp.wp hop
  | _ => cases hexec

end Invariants

end Munavvar.ReadCommitted
