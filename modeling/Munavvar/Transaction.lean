import Mathlib.Data.List.Basic
import Mathlib.Logic.Basic

/-!
# Transaction programs

A database transaction is a program that reads snapshots, locks rows and
issues statements on single rows. The program is data, so one text is run
serially by an interpreter and step by step among concurrent transactions.
The weakest precondition is parametric in what a plain read may return; its
rules follow the constructors of a program, and the frame rule needs only the
statements that a program can issue.
-/

namespace Munavvar.Transaction

/-- A keyed store with one row type and one statement type for each key. -/
structure Schema where
  /-- The committed content of the store. -/
  State : Type
  /-- Addresses of rows; a row lock is a lock on its key. -/
  Key : Type
  /-- Keys are compared when a lock is looked up. -/
  keyEq : DecidableEq Key
  /-- The row stored under a key. -/
  Row : Key → Type
  /-- The statements that write the row of a key. -/
  Stmt : Key → Type
  /-- The exceptions a statement or the program around it raises. -/
  Err : Type
  /-- The part of the store that no statement writes. -/
  Static : Type
  /-- Look a row up. -/
  get : State → (k : Key) → Option (Row k)
  /-- Store, overwrite or delete a row. -/
  put : State → (k : Key) → Option (Row k) → State
  /-- One statement on the current row: the row it leaves, or the violated constraint. -/
  exec : (k : Key) → Stmt k → Option (Row k) → Except Err (Option (Row k))
  /-- Project the immutable part. -/
  static : State → Static
  /-- A stored row is read back. -/
  get_put_self : ∀ s k r, get (put s k r) k = r
  /-- Writing one row does not change another. -/
  get_put_ne : ∀ s k r j, j ≠ k → get (put s k r) j = get s j
  /-- No row belongs to the immutable part. -/
  static_put : ∀ s k r, static (put s k r) = static s

instance (S : Schema) : DecidableEq S.Key := S.keyEq

/-- A program inside one transaction with a result of type `α`. -/
inductive Prog (S : Schema) (α : Type) : Type
  /-- Finish with a result. -/
  | ret (a : α)
  /-- Leave with an exception; the transaction rolls back. -/
  | raise (e : S.Err)
  /-- Evaluate a plain `SELECT` on a snapshot of committed rows and own writes. -/
  | query (next : S.State → Prog S α)
  /-- Take a row lock, waiting for its holder, and read the current row. -/
  | lock (k : S.Key) (next : Option (S.Row k) → Prog S α)
  /-- Take a row lock only if it is free (`SKIP LOCKED`). -/
  | tryLock (k : S.Key) (next : Option (Option (S.Row k)) → Prog S α)
  /-- Lock a row and execute one statement on it. -/
  | write (k : S.Key) (st : S.Stmt k) (next : Prog S α)

namespace Prog

variable {S : Schema} {α β γ : Type}

/-- Run a second program on the result of the first. -/
def bind : Prog S α → (α → Prog S β) → Prog S β
  | ret a, f => f a
  | raise e, _ => raise e
  | query next, f => query fun v => (next v).bind f
  | lock k next, f => lock k fun r => (next r).bind f
  | tryLock k next, f => tryLock k fun r => (next r).bind f
  | write k st next, f => write k st (next.bind f)

instance : Monad (Prog S) where
  pure := ret
  bind := bind

/-- Parts of a transaction may be grouped either way. -/
theorem bind_bind (p : Prog S α) (f : α → Prog S β) (g : β → Prog S γ) :
    p >>= f >>= g = p >>= fun a => f a >>= g := by
  change (p.bind f).bind g = p.bind fun a => (f a).bind g
  induction p with
  | ret a => rfl
  | raise e => rfl
  | query next ih => exact congrArg query (funext fun v => ih v)
  | lock k next ih => exact congrArg (lock k) (funext fun r => ih r)
  | tryLock k next ih => exact congrArg (tryLock k) (funext fun r => ih r)
  | write k st next ih => exact congrArg (write k st) ih

/-- Nothing is added by a part that only hands its result on. -/
theorem bind_ret (p : Prog S α) : p >>= ret = p := by
  change p.bind ret = p
  induction p with
  | ret a => rfl
  | raise e => rfl
  | query next ih => exact congrArg query (funext fun v => ih v)
  | lock k next ih => exact congrArg (lock k) (funext fun r => ih r)
  | tryLock k next ih => exact congrArg (tryLock k) (funext fun r => ih r)
  | write k st next ih => exact congrArg (write k st) ih

/-- The value of a plain query. -/
def ask (f : S.State → α) : Prog S α := query fun v => ret (f v)

/-- The current row under its lock. -/
def locked (k : S.Key) : Prog S (Option (S.Row k)) := lock k ret

/-- The current row if its lock is free. -/
def unlessLocked (k : S.Key) : Prog S (Option (Option (S.Row k))) := tryLock k ret

/-- One statement. -/
def execute (k : S.Key) (st : S.Stmt k) : Prog S Unit := write k st (ret ())

/-- Raise when a condition holds. -/
def raiseIf (c : Prop) [Decidable c] (e : S.Err) : Prog S Unit :=
  if c then raise e else ret ()

/-- The value of an option, or an exception in place of a missing one. -/
def orRaise (o : Option α) (e : S.Err) : Prog S α :=
  match o with
  | some a => ret a
  | none => raise e

/-- A result or an exception that has been computed. -/
def fromExcept (x : Except S.Err α) : Prog S α :=
  match x with
  | .ok a => ret a
  | .error e => raise e

/-- Run a program only when a condition holds. -/
def whenever (c : Prop) [Decidable c] (p : Prog S Unit) : Prog S Unit :=
  if c then p else ret ()

/-- Run a program on the value of an option, if there is one. -/
def whenSome (o : Option α) (f : α → Prog S Unit) : Prog S Unit :=
  match o with
  | some a => f a
  | none => ret ()

/-- Run a program for each element in turn. -/
def forEach : List β → (β → Prog S Unit) → Prog S Unit
  | [], _ => ret ()
  | b :: bs, f => (f b).bind fun _ => forEach bs f

/-- Run a program for each element in turn and collect the results. -/
def collect : List β → (β → Prog S γ) → Prog S (List γ)
  | [], _ => ret []
  | b :: bs, f => (f b).bind fun c => (collect bs f).bind fun cs => ret (c :: cs)

/-- Execute a program alone: an exception discards every write. -/
def run : Prog S α → S.State → Except S.Err (α × S.State)
  | ret a, s => .ok (a, s)
  | raise e, _ => .error e
  | query next, s => (next s).run s
  | lock k next, s => (next (S.get s k)).run s
  | tryLock k next, s => (next (some (S.get s k))).run s
  | write k st next, s =>
    match S.exec k st (S.get s k) with
    | .ok r => next.run (S.put s k r)
    | .error e => .error e

/-- A statement together with the row it was executed on. -/
structure Executed (S : Schema) where
  /-- The row's address. -/
  key : S.Key
  /-- The statement. -/
  stmt : S.Stmt key
  /-- The row as the statement found it. -/
  old : Option (S.Row key)

/-- The statements of a serial execution in order, the failing one included. -/
def executed : Prog S α → S.State → List (Executed S)
  | ret _, _ => []
  | raise _, _ => []
  | query next, s => (next s).executed s
  | lock k next, s => (next (S.get s k)).executed s
  | tryLock k next, s => (next (some (S.get s k))).executed s
  | write k st next, s =>
    ⟨k, st, S.get s k⟩ ::
      match S.exec k st (S.get s k) with
      | .ok r => next.executed (S.put s k r)
      | .error _ => []

end Prog

/-- What surrounds a program: which snapshots it may see and which statements
are assumed, or have to be shown, to be in order. -/
structure Regime (S : Schema) where
  /-- The snapshots a plain read may return in a state. -/
  sees : S.State → S.State → Prop
  /-- Whether another transaction may hold a lock that is only tried. -/
  skips : Prop
  /-- Statements that do not satisfy this are left out of consideration. -/
  assumes : (k : S.Key) → S.Stmt k → Option (S.Row k) → Prop
  /-- Every statement that is executed has to satisfy this. -/
  asserts : (k : S.Key) → S.Stmt k → Option (S.Row k) → Prop

namespace Regime

variable {S : Schema}

/-- A transaction alone, every statement of which has to satisfy a condition. -/
def serialAsserting (asserts : (k : S.Key) → S.Stmt k → Option (S.Row k) → Prop) : Regime S where
  sees s v := v = s
  skips := False
  assumes _ _ _ := True
  asserts := asserts

/-- A transaction alone. -/
def serial : Regime S := serialAsserting fun _ _ _ => True

/-- A transaction among others: a plain read may return any snapshot with the
same immutable part, while locked rows are current. -/
def concurrentAssuming (assumes : (k : S.Key) → S.Stmt k → Option (S.Row k) → Prop) :
    Regime S where
  sees s v := S.static v = S.static s
  skips := True
  assumes := assumes
  asserts _ _ _ := True

/-- A transaction among arbitrary others. -/
def concurrent : Regime S := concurrentAssuming fun _ _ _ => True

/-- Snapshots agree with the current state on the immutable part. -/
def Sound (R : Regime S) : Prop := ∀ s v, R.sees s v → S.static v = S.static s

/-- Snapshots are the current state. -/
def Exact (R : Regime S) : Prop := ∀ s v, R.sees s v → v = s

/-- Nothing has to be shown of the statements. -/
def Lax (R : Regime S) : Prop := ∀ k st old, R.asserts k st old

theorem serialAsserting_sound (A : (k : S.Key) → S.Stmt k → Option (S.Row k) → Prop) :
    (serialAsserting A).Sound := by
  intro s v h
  rw [show v = s from h]

theorem serial_sound : (serial : Regime S).Sound := serialAsserting_sound _

theorem serialAsserting_exact (A : (k : S.Key) → S.Stmt k → Option (S.Row k) → Prop) :
    (serialAsserting A).Exact := fun _ _ h => h

theorem concurrentAssuming_sound (A : (k : S.Key) → S.Stmt k → Option (S.Row k) → Prop) :
    (concurrentAssuming A).Sound := fun _ _ h => h

theorem serial_lax : (serial : Regime S).Lax := fun _ _ _ => trivial

theorem concurrentAssuming_lax (A : (k : S.Key) → S.Stmt k → Option (S.Row k) → Prop) :
    (concurrentAssuming A).Lax := fun _ _ _ => trivial

end Regime

open Prog

variable {S : Schema} {α β γ : Type} {R : Regime S}

/-- The weakest condition on a state under which a program ends well: a result
satisfies `Q` in the state it leaves and an exception satisfies `E`. -/
def wp (R : Regime S) : Prog S α → (α → S.State → Prop) → (S.Err → Prop) → S.State → Prop
  | ret a, Q, _, s => Q a s
  | raise e, _, E, _ => E e
  | query next, Q, E, s => ∀ v, R.sees s v → wp R (next v) Q E s
  | lock k next, Q, E, s => wp R (next (S.get s k)) Q E s
  | tryLock k next, Q, E, s =>
    wp R (next (some (S.get s k))) Q E s ∧ (R.skips → wp R (next none) Q E s)
  | write k st next, Q, E, s =>
    R.assumes k st (S.get s k) →
      R.asserts k st (S.get s k) ∧
        match S.exec k st (S.get s k) with
        | .ok r => wp R next Q E (S.put s k r)
        | .error e => E e

section Rules

variable {Q Q' : α → S.State → Prop} {E E' : S.Err → Prop} {s : S.State}

@[simp] theorem wp_ret (a : α) : wp R (ret a) Q E s ↔ Q a s := Iff.rfl

@[simp] theorem wp_pure (a : α) : wp R (pure a : Prog S α) Q E s ↔ Q a s := Iff.rfl

@[simp] theorem wp_raise (e : S.Err) : wp R (raise e : Prog S α) Q E s ↔ E e := Iff.rfl

@[simp] theorem wp_ask (f : S.State → α) :
    wp R (ask f) Q E s ↔ ∀ v, R.sees s v → Q (f v) s := Iff.rfl

/-- A plain read that is never stale returns what is there. -/
theorem wp_ask_exact (hexact : R.Exact) {f : S.State → α} (hQ : Q (f s) s) :
    wp R (ask f) Q E s := by
  intro v hv
  rw [hexact s v hv]
  exact hQ

@[simp] theorem wp_locked (k : S.Key) {Q : Option (S.Row k) → S.State → Prop} :
    wp R (locked k) Q E s ↔ Q (S.get s k) s := Iff.rfl

@[simp] theorem wp_unlessLocked (k : S.Key) {Q : Option (Option (S.Row k)) → S.State → Prop} :
    wp R (unlessLocked k) Q E s ↔
      Q (some (S.get s k)) s ∧ (R.skips → Q none s) := Iff.rfl

/-- The condition before one statement. -/
theorem wp_execute (k : S.Key) (st : S.Stmt k) {Q : Unit → S.State → Prop} :
    wp R (execute k st) Q E s ↔
      (R.assumes k st (S.get s k) →
        R.asserts k st (S.get s k) ∧
          match S.exec k st (S.get s k) with
          | .ok r => Q () (S.put s k r)
          | .error e => E e) := Iff.rfl

/-- A statement whose outcome is described for success and for failure. -/
theorem wp_execute_of {k : S.Key} {st : S.Stmt k} {Q : Unit → S.State → Prop}
    (hlax : R.asserts k st (S.get s k))
    (hok : R.assumes k st (S.get s k) →
      ∀ r, S.exec k st (S.get s k) = .ok r → Q () (S.put s k r))
    (herr : ∀ e, S.exec k st (S.get s k) = .error e → E e) : wp R (execute k st) Q E s := by
  rw [wp_execute]
  intro ha
  refine ⟨hlax, ?_⟩
  split
  · next r hr => exact hok ha r hr
  · next e he => exact herr e he

/-- The condition before a statement that is followed by more. -/
theorem wp_write (k : S.Key) (st : S.Stmt k) (next : Prog S α) :
    wp R (write k st next) Q E s ↔
      (R.assumes k st (S.get s k) →
        R.asserts k st (S.get s k) ∧
          (∀ r, S.exec k st (S.get s k) = .ok r → wp R next Q E (S.put s k r)) ∧
          ∀ e, S.exec k st (S.get s k) = .error e → E e) := by
  rw [wp]
  cases S.exec k st (S.get s k) with
  | ok r => simp only [Except.ok.injEq, forall_eq', reduceCtorEq, false_implies, implies_true,
      and_true]
  | error e => simp only [reduceCtorEq, false_implies, implies_true, Except.error.injEq,
      forall_eq', true_and]

@[simp] theorem wp_raiseIf (c : Prop) [Decidable c] (e : S.Err) {Q : Unit → S.State → Prop} :
    wp R (raiseIf c e) Q E s ↔ (c → E e) ∧ (¬ c → Q () s) := by
  unfold raiseIf
  by_cases hc : c
  · simp only [hc, if_true, wp_raise, true_implies, not_true_eq_false, false_implies, and_true]
  · simp only [hc, if_false, wp_ret, false_implies, not_false_eq_true, true_implies, true_and]

@[simp] theorem wp_orRaise (o : Option α) (e : S.Err) :
    wp R (orRaise o e) Q E s ↔ (o = none → E e) ∧ ∀ a, o = some a → Q a s := by
  cases o with
  | none => simp only [orRaise, wp_raise, true_implies, reduceCtorEq, false_implies,
      implies_true, and_true]
  | some a => simp only [orRaise, wp_ret, reduceCtorEq, false_implies, Option.some.injEq,
      forall_eq', true_and]

@[simp] theorem wp_fromExcept (x : Except S.Err α) :
    wp R (fromExcept x) Q E s ↔ (∀ e, x = .error e → E e) ∧ ∀ a, x = .ok a → Q a s := by
  cases x with
  | error e => simp only [fromExcept, wp_raise, Except.error.injEq, forall_eq', reduceCtorEq,
      false_implies, implies_true, and_true]
  | ok a => simp only [fromExcept, wp_ret, reduceCtorEq, false_implies, implies_true,
      Except.ok.injEq, forall_eq', true_and]

@[simp] theorem wp_whenever (c : Prop) [Decidable c] (p : Prog S Unit)
    {Q : Unit → S.State → Prop} :
    wp R (whenever c p) Q E s ↔ (c → wp R p Q E s) ∧ (¬ c → Q () s) := by
  unfold whenever
  by_cases hc : c
  · simp only [hc, if_true, true_implies, not_true_eq_false, false_implies, and_true]
  · simp only [hc, if_false, wp_ret, false_implies, not_false_eq_true, true_implies, true_and]

@[simp] theorem wp_whenSome (o : Option α) (f : α → Prog S Unit) {Q : Unit → S.State → Prop} :
    wp R (whenSome o f) Q E s ↔ (∀ a, o = some a → wp R (f a) Q E s) ∧ (o = none → Q () s) := by
  cases o with
  | none => simp only [whenSome, wp_ret, reduceCtorEq, false_implies, implies_true, true_implies,
      true_and]
  | some a => simp only [whenSome, Option.some.injEq, forall_eq', reduceCtorEq, false_implies,
      and_true]

/-- The condition is monotone in what is wanted of results and exceptions. -/
theorem wp_mono (p : Prog S α) (h : wp R p Q E s) (hQ : ∀ a s', Q a s' → Q' a s')
    (hE : ∀ e, E e → E' e) : wp R p Q' E' s := by
  induction p generalizing s with
  | ret a => exact hQ a s h
  | raise e => exact hE e h
  | query next ih => exact fun v hv => ih v (h v hv)
  | lock k next ih => exact ih _ h
  | tryLock k next ih => exact ⟨ih _ h.1, fun hs => ih _ (h.2 hs)⟩
  | write k st next ih =>
    intro ha
    obtain ⟨hassert, h⟩ := h ha
    refine ⟨hassert, ?_⟩
    cases hx : S.exec k st (S.get s k) with
    | ok r =>
      rw [hx] at h
      exact ih h
    | error e =>
      rw [hx] at h
      exact hE e h

/-- The condition before a sequence is the one of its parts, composed. -/
theorem wp_bind' (p : Prog S α) (f : α → Prog S β) {Q : β → S.State → Prop} :
    wp R (p.bind f) Q E s ↔ wp R p (fun a s' => wp R (f a) Q E s') E s := by
  induction p generalizing s with
  | ret a => exact Iff.rfl
  | raise e => exact Iff.rfl
  | query next ih => exact forall_congr' fun v => imp_congr_right fun _ => ih v
  | lock k next ih => exact ih _
  | tryLock k next ih => exact and_congr (ih _) (imp_congr_right fun _ => ih _)
  | write k st next ih =>
    refine imp_congr_right fun _ => and_congr_right fun _ => ?_
    cases S.exec k st (S.get s k) with
    | ok r => exact ih
    | error e => exact Iff.rfl

@[simp] theorem wp_bind (p : Prog S α) (f : α → Prog S β) {Q : β → S.State → Prop} :
    wp R (p >>= f) Q E s ↔ wp R p (fun a s' => wp R (f a) Q E s') E s :=
  wp_bind' p f

/-- What holds whatever the program does holds after it. -/
theorem wp_of_forall (hlax : R.Lax) (p : Prog S α) (hQ : ∀ a s', Q a s') :
    wp R p Q (fun _ => True) s := by
  induction p generalizing s with
  | ret a => exact hQ a s
  | raise e => exact trivial
  | query next ih => exact fun v _ => ih v
  | lock k next ih => exact ih _
  | tryLock k next ih => exact ⟨ih _, fun _ => ih _⟩
  | write k st next ih =>
    rw [wp_write]
    exact fun _ => ⟨hlax _ _ _, fun _ _ => ih, fun _ _ => trivial⟩

/-- Two descriptions of one program hold together. -/
theorem wp_and (p : Prog S α) (h : wp R p Q E s) (h' : wp R p Q' E' s) :
    wp R p (fun a s' => Q a s' ∧ Q' a s') (fun e => E e ∧ E' e) s := by
  induction p generalizing s with
  | ret a => exact ⟨h, h'⟩
  | raise e => exact ⟨h, h'⟩
  | query next ih => exact fun v hv => ih v (h v hv) (h' v hv)
  | lock k next ih => exact ih _ h h'
  | tryLock k next ih => exact ⟨ih _ h.1 h'.1, fun hs => ih _ (h.2 hs) (h'.2 hs)⟩
  | write k st next ih =>
    intro ha
    obtain ⟨hassert, h⟩ := h ha
    obtain ⟨-, h'⟩ := h' ha
    refine ⟨hassert, ?_⟩
    cases hx : S.exec k st (S.get s k) with
    | ok r =>
      rw [hx] at h h'
      exact ih h h'
    | error e =>
      rw [hx] at h h'
      exact ⟨h, h'⟩

/-- The loop rule: what one round keeps for the elements still to come holds at the end. -/
theorem wp_forEach (f : β → Prog S Unit) (I : List β → S.State → Prop) {E : S.Err → Prop}
    (hround : ∀ b bs s, I (b :: bs) s → wp R (f b) (fun _ s' => I bs s') E s) :
    ∀ (bs : List β) (s : S.State), I bs s → wp R (forEach bs f) (fun _ s' => I [] s') E s := by
  intro bs
  induction bs with
  | nil => exact fun s h => h
  | cons b bs ih =>
    intro s h
    rw [forEach, wp_bind']
    exact wp_mono (f b) (hround b bs s h) (fun _ s' h' => ih s' h') fun _ he => he

/-- The loop rule by what has been done: one round extends the prefix that is finished. -/
theorem wp_loop {f : β → Prog S Unit} {bs : List β} (J : List β → S.State → Prop)
    {Q : Unit → S.State → Prop} {E : S.Err → Prop} {s : S.State} (hstart : J [] s)
    (hround : ∀ done b todo s, done ++ b :: todo = bs → J done s →
      wp R (f b) (fun _ s' => J (done ++ [b]) s') E s)
    (hend : ∀ s', J bs s' → Q () s') : wp R (forEach bs f) Q E s := by
  have hloop := wp_forEach (R := R) f (fun todo s' => ∃ done, done ++ todo = bs ∧ J done s')
    (by
      rintro b todo s' ⟨done, hdone, hs'⟩
      refine wp_mono (f b) (hround done b todo s' hdone hs') (fun _ s'' h => ?_) fun _ he => he
      exact ⟨done ++ [b], by rw [List.append_assoc, List.singleton_append, hdone], h⟩)
    bs s ⟨[], rfl, hstart⟩
  refine wp_mono _ hloop (fun _ s' h => ?_) fun _ he => he
  obtain ⟨done, hdone, hs'⟩ := h
  rw [List.append_nil] at hdone
  exact hend s' (hdone ▸ hs')

/-- A bulk insert: what each row that is stored leaves to do is done by its own trigger. -/
theorem wp_storeAndTrigger {store trigger : β → Prog S Unit} (I : List β → S.State → Prop)
    {E : S.Err → Prop} {bs : List β} {s : S.State}
    (hstore : ∀ done b s, I done s → wp R (store b) (fun _ s' => I (done ++ [b]) s') E s)
    (htrigger : ∀ b todo s, I (b :: todo) s → wp R (trigger b) (fun _ s' => I todo s') E s)
    (h : I [] s) :
    wp R (do forEach bs store; forEach bs trigger) (fun _ s' => I [] s') E s := by
  rw [wp_bind]
  exact wp_loop I h (fun done b _ s _ hs => hstore done b s hs) fun s' hs' =>
    wp_forEach trigger I htrigger bs s' hs'

/-- A loop that only reads collects what each round reads. -/
theorem wp_collect_reads {f : β → Prog S γ} (g : β → γ) {E : S.Err → Prop} {s : S.State}
    {bs : List β} (hf : ∀ b ∈ bs, ∀ Q : γ → S.State → Prop, Q (g b) s → wp R (f b) Q E s)
    {Q : List γ → S.State → Prop} (hQ : Q (bs.map g) s) : wp R (collect bs f) Q E s := by
  induction bs generalizing Q with
  | nil => exact hQ
  | cons b bs ih =>
    rw [collect, wp_bind']
    refine hf b List.mem_cons_self _ ?_
    rw [wp_bind']
    exact ih (fun b' hb' => hf b' (List.mem_cons_of_mem b hb')) hQ

end Rules

section Serial

variable {A : (k : S.Key) → S.Stmt k → Option (S.Row k) → Prop}

/-- Alone, the weakest precondition says how the interpreter ends and what its statements find. -/
theorem wp_serialAsserting_iff (p : Prog S α) (Q : α → S.State → Prop) (E : S.Err → Prop)
    (s : S.State) :
    wp (Regime.serialAsserting A) p Q E s ↔
      (match p.run s with
        | .ok (a, s') => Q a s'
        | .error e => E e) ∧
      ∀ x ∈ p.executed s, A x.key x.stmt x.old := by
  induction p generalizing s with
  | ret a => simp only [wp_ret, run, executed, List.not_mem_nil, false_implies, implies_true,
      and_true]
  | raise e => simp only [wp_raise, run, executed, List.not_mem_nil, false_implies, implies_true,
      and_true]
  | query next ih =>
    constructor
    · exact fun h => (ih s s).mp (h s rfl)
    · rintro h v rfl
      exact (ih v v).mpr h
  | lock k next ih => exact ih _ s
  | tryLock k next ih =>
    constructor
    · exact fun h => (ih _ s).mp h.1
    · exact fun h => ⟨(ih _ s).mpr h, False.elim⟩
  | write k st next ih =>
    have hstep : wp (Regime.serialAsserting A) (write k st next) Q E s ↔
        A k st (S.get s k) ∧
          match S.exec k st (S.get s k) with
          | .ok r => wp (Regime.serialAsserting A) next Q E (S.put s k r)
          | .error e => E e := true_imp_iff
    rw [hstep, run, executed, List.forall_mem_cons]
    cases S.exec k st (S.get s k) with
    | ok r =>
      dsimp only
      rw [ih (S.put s k r)]
      exact and_left_comm
    | error e =>
      simp only [List.not_mem_nil, false_implies, implies_true, and_true]
      exact and_comm

/-- Alone and without conditions on statements, the weakest precondition is about the interpreter. -/
theorem wp_serial_iff (p : Prog S α) (Q : α → S.State → Prop) (E : S.Err → Prop) (s : S.State) :
    wp Regime.serial p Q E s ↔
      match p.run s with
      | .ok (a, s') => Q a s'
      | .error e => E e := by
  rw [Regime.serial, wp_serialAsserting_iff]
  simp only [implies_true, and_true]

/-- What the weakest precondition gives of a serial execution that ends with a result. -/
theorem wp_serial_run {p : Prog S α} {Q : α → S.State → Prop} {E : S.Err → Prop} {s s' : S.State}
    {a : α} (h : wp Regime.serial p Q E s) (hrun : p.run s = .ok (a, s')) : Q a s' := by
  rw [wp_serial_iff, hrun] at h
  exact h

/-- A program that no exception can leave has a result. -/
theorem run_of_wp {p : Prog S α} {Q : α → S.State → Prop} {s : S.State}
    (h : wp Regime.serial p Q (fun _ => False) s) : ∃ a s', p.run s = .ok (a, s') ∧ Q a s' := by
  rw [wp_serial_iff] at h
  cases hrun : p.run s with
  | error e =>
    rw [hrun] at h
    exact h.elim
  | ok x =>
    rw [hrun] at h
    exact ⟨x.1, x.2, rfl, h⟩

/-- The state after a transaction that runs alone; an exception leaves it as it was. -/
def serve (p : Prog S α) (s : S.State) : S.State :=
  match p.run s with
  | .ok (_, s') => s'
  | .error _ => s

/-- The state after several requests, one after another. -/
def serveAll (program : β → Prog S Unit) (rs : List β) (s : S.State) : S.State :=
  rs.foldl (fun s r => serve (program r) s) s

/-- What holds before a transaction and after its success holds after it has been served. -/
theorem serve_of_wp {p : Prog S α} {I : S.State → Prop} {E : S.Err → Prop} {s : S.State}
    (h : wp (Regime.serialAsserting A) p (fun _ s' => I s') E s) (hs : I s) : I (serve p s) := by
  have hrun := ((wp_serialAsserting_iff p _ E s).mp h).1
  unfold serve
  split <;> rename_i heq <;> rw [heq] at hrun
  · exact hrun
  · exact hs

/-- Every request of a run meets a condition in the state in which it is served. -/
def Along (program : β → Prog S Unit) (cond : β → S.State → Prop) : List β → S.State → Prop
  | [], _ => True
  | r :: rs, s => cond r s ∧ Along program cond rs (serve (program r) s)

instance Along.decidable (program : β → Prog S Unit) (cond : β → S.State → Prop)
    [∀ r s, Decidable (cond r s)] : ∀ rs s, Decidable (Along program cond rs s)
  | [], _ => .isTrue trivial
  | r :: rs, s =>
    have := Along.decidable program cond rs (serve (program r) s)
    inferInstanceAs (Decidable (cond r s ∧ Along program cond rs (serve (program r) s)))

/-- The run rule: what serving a request that meets the condition keeps is kept
by every run whose requests meet it. -/
theorem serveAll_along {program : β → Prog S Unit} {cond : β → S.State → Prop}
    {I : S.State → Prop} {s : S.State} (hs : I s)
    (hstep : ∀ r s, cond r s → I s → I (serve (program r) s)) {rs : List β}
    (hrs : Along program cond rs s) : I (serveAll program rs s) := by
  induction rs generalizing s with
  | nil => exact hs
  | cons r rs ih => exact ih (hstep r s hrs.1 hs) hrs.2

/-- The run rule for runs without a condition. -/
theorem serveAll_induction {program : β → Prog S Unit} {I : S.State → Prop} {s : S.State}
    (hs : I s) (hstep : ∀ r s, I s → I (serve (program r) s)) (rs : List β) :
    I (serveAll program rs s) := by
  have hrs : ∀ (rs : List β) (s : S.State), Along program (fun _ _ => True) rs s := by
    intro rs
    induction rs with
    | nil => exact fun _ => trivial
    | cons r rs ih => exact fun s => ⟨trivial, ih _⟩
  exact serveAll_along hs (fun r s _ => hstep r s) (hrs rs s)

theorem serveAll_append (program : β → Prog S Unit) (rs rs' : List β) (s : S.State) :
    serveAll program (rs ++ rs') s = serveAll program rs' (serveAll program rs s) :=
  List.foldl_append

end Serial

/-! ## Programs that complete -/

/-- A program alone ends with a result. -/
def Completes (p : Prog S α) (s : S.State) : Prop :=
  wp Regime.serial p (fun _ _ => True) (fun _ => False) s

section Completion

variable {Q : α → S.State → Prop} {s : S.State}

theorem completes_iff {p : Prog S α} : Completes p s ↔ ∃ a s', p.run s = .ok (a, s') := by
  constructor
  · intro h
    obtain ⟨a, s', hrun, -⟩ := run_of_wp h
    exact ⟨a, s', hrun⟩
  · rintro ⟨a, s', hrun⟩
    rw [Completes, wp_serial_iff, hrun]
    trivial

/-- What is left to hold after a program does not depend on how it ends. -/
theorem wp_const_iff {p : Prog S α} {c : Prop} :
    wp Regime.serial p (fun _ _ => c) (fun _ => False) s ↔ Completes p s ∧ c := by
  rw [Completes, wp_serial_iff, wp_serial_iff]
  cases p.run s with
  | ok x => simp
  | error e => simp

theorem wp_execute_alone {k : S.Key} {st : S.Stmt k} {Q : Unit → S.State → Prop} :
    wp Regime.serial (execute k st) Q (fun _ => False) s ↔
      ∃ r, S.exec k st (S.get s k) = .ok r ∧ Q () (S.put s k r) := by
  rw [wp_execute]
  change True → True ∧ _ ↔ _
  cases h : S.exec k st (S.get s k) with
  | ok r => simp
  | error e => simp

theorem wp_ask_alone {f : S.State → α} {E : S.Err → Prop} :
    wp Regime.serial (ask f) Q E s ↔ Q (f s) s := by
  constructor
  · exact fun h => h s rfl
  · exact wp_ask_exact (Regime.serialAsserting_exact _)

/-- A condition of which an exception is raised has to fail. -/
theorem wp_raiseIf_alone {c : Prop} [Decidable c] {e : S.Err} {Q : Unit → S.State → Prop} :
    wp Regime.serial (raiseIf c e) Q (fun _ => False) s ↔ ¬ c ∧ Q () s := by
  rw [wp_raiseIf]
  constructor
  · rintro ⟨h, hQ⟩
    exact ⟨h, hQ h⟩
  · rintro ⟨h, hQ⟩
    exact ⟨h, fun _ => hQ⟩

/-- A loop over one element is one round. -/
theorem wp_forEach_singleton {b : β} {f : β → Prog S Unit} {Q : Unit → S.State → Prop}
    {E : S.Err → Prop} : wp R (forEach [b] f) Q E s ↔ wp R (f b) Q E s := by
  rw [forEach, wp_bind']
  exact Iff.rfl

end Completion

/-! ## Statements a program can issue -/

/-- Whatever it reads, the program issues only statements of one kind and
raises by itself only exceptions of one kind. -/
def Within (P : (k : S.Key) → S.Stmt k → Prop) (X : S.Err → Prop) : Prog S α → Prop
  | ret _ => True
  | raise e => X e
  | query next => ∀ v, Within P X (next v)
  | lock _ next => ∀ r, Within P X (next r)
  | tryLock _ next => ∀ r, Within P X (next r)
  | write k st next => P k st ∧ Within P X next

section Frame

variable {P : (k : S.Key) → S.Stmt k → Prop} {X : S.Err → Prop}

@[simp] theorem within_ret (a : α) : Within P X (ret a) := trivial

@[simp] theorem within_pure (a : α) : Within P X (pure a : Prog S α) := trivial

@[simp] theorem within_raise (e : S.Err) : Within P X (raise e : Prog S α) ↔ X e := Iff.rfl

@[simp] theorem within_ask (f : S.State → α) : Within P X (ask f) := fun _ => trivial

@[simp] theorem within_locked (k : S.Key) : Within P X (locked k : Prog S _) := fun _ => trivial

@[simp] theorem within_unlessLocked (k : S.Key) : Within P X (unlessLocked k : Prog S _) :=
  fun _ => trivial

@[simp] theorem within_execute (k : S.Key) (st : S.Stmt k) :
    Within P X (execute k st) ↔ P k st := iff_of_eq (and_true _)

@[simp] theorem within_raiseIf (c : Prop) [Decidable c] (e : S.Err) :
    Within P X (raiseIf c e : Prog S Unit) ↔ (c → X e) := by
  unfold raiseIf
  by_cases hc : c
  · simp only [hc, if_true, within_raise, true_implies]
  · simp only [hc, if_false, within_ret, false_implies]

@[simp] theorem within_orRaise (o : Option α) (e : S.Err) :
    Within P X (orRaise o e : Prog S α) ↔ (o = none → X e) := by
  cases o with
  | none => simp only [orRaise, within_raise, true_implies]
  | some a => simp only [orRaise, within_ret, reduceCtorEq, false_implies]

@[simp] theorem within_fromExcept (x : Except S.Err α) :
    Within P X (fromExcept x : Prog S α) ↔ ∀ e, x = .error e → X e := by
  cases x with
  | error e => simp only [fromExcept, within_raise, Except.error.injEq, forall_eq']
  | ok a => simp only [fromExcept, within_ret, reduceCtorEq, false_implies, implies_true]

@[simp] theorem within_whenever (c : Prop) [Decidable c] (p : Prog S Unit) :
    Within P X (whenever c p) ↔ (c → Within P X p) := by
  unfold whenever
  by_cases hc : c
  · simp only [hc, if_true, true_implies]
  · simp only [hc, if_false, within_ret, false_implies]

@[simp] theorem within_whenSome (o : Option α) (f : α → Prog S Unit) :
    Within P X (whenSome o f) ↔ ∀ a, o = some a → Within P X (f a) := by
  cases o with
  | none => simp only [whenSome, within_ret, reduceCtorEq, false_implies, implies_true]
  | some a => simp only [whenSome, Option.some.injEq, forall_eq']

theorem within_bind' {p : Prog S α} {f : α → Prog S β} (hp : Within P X p)
    (hf : ∀ a, Within P X (f a)) : Within P X (p.bind f) := by
  induction p with
  | ret a => exact hf a
  | raise e => exact hp
  | query next ih => exact fun v => ih v (hp v)
  | lock k next ih => exact fun r => ih r (hp r)
  | tryLock k next ih => exact fun r => ih r (hp r)
  | write k st next ih => exact ⟨hp.1, ih hp.2⟩

theorem within_bind {p : Prog S α} {f : α → Prog S β} (hp : Within P X p)
    (hf : ∀ a, Within P X (f a)) : Within P X (p >>= f) := within_bind' hp hf

theorem within_forEach_mem {f : β → Prog S Unit} {bs : List β}
    (hf : ∀ b ∈ bs, Within P X (f b)) : Within P X (forEach bs f) := by
  induction bs with
  | nil => exact trivial
  | cons b bs ih =>
    exact within_bind' (hf b List.mem_cons_self) fun _ => ih fun b' hb' =>
      hf b' (List.mem_cons_of_mem b hb')

theorem within_forEach {f : β → Prog S Unit} {bs : List β} (hf : ∀ b, Within P X (f b)) :
    Within P X (forEach bs f) := within_forEach_mem fun b _ => hf b

theorem within_collect {f : β → Prog S γ} {bs : List β} (hf : ∀ b, Within P X (f b)) :
    Within P X (collect bs f) := by
  induction bs with
  | nil => exact trivial
  | cons b bs ih => exact within_bind' (hf b) fun _ => within_bind' ih fun _ => trivial

theorem within_true (p : Prog S α) : Within (fun _ _ => True) (fun _ => True) p := by
  induction p with
  | ret a => exact trivial
  | raise e => exact trivial
  | query next ih => exact ih
  | lock k next ih => exact ih
  | tryLock k next ih => exact ih
  | write k st next ih => exact ⟨trivial, ih⟩

/-- Larger kinds of statements and exceptions admit the same programs. -/
theorem Within.mono {P' : (k : S.Key) → S.Stmt k → Prop} {X' : S.Err → Prop} {p : Prog S α}
    (h : Within P X p) (hP : ∀ k st, P k st → P' k st) (hX : ∀ e, X e → X' e) :
    Within P' X' p := by
  induction p with
  | ret a => exact trivial
  | raise e => exact hX e h
  | query next ih => exact fun v => ih v (h v)
  | lock k next ih => exact fun r => ih r (h r)
  | tryLock k next ih => exact fun r => ih r (h r)
  | write k st next ih => exact ⟨hP k st h.1, ih h.2⟩

/-- The states that statements of one kind can lead to. -/
inductive Frame (P : (k : S.Key) → S.Stmt k → Prop) (s : S.State) : S.State → Prop
  /-- Nothing was written. -/
  | refl : Frame P s s
  /-- One more row was written. -/
  | put {s' : S.State} {k : S.Key} {st : S.Stmt k} (r : Option (S.Row k)) :
    Frame P s s' → P k st → Frame P s (S.put s' k r)

/-- What no statement of the kind can change stays. -/
theorem Frame.induction {I : S.State → Prop} {s s' : S.State} (h : Frame P s s') (hs : I s)
    (hput : ∀ s k st r, P k st → I s → I (S.put s k r)) : I s' := by
  induction h with
  | refl => exact hs
  | put r _ hst ih => exact hput _ _ _ r hst ih

/-- A projection that no statement of the kind touches stays the same. -/
theorem Frame.proj_eq {X : Type} (f : S.State → X) {s s' : S.State} (h : Frame P s s')
    (hput : ∀ s k st r, P k st → f (S.put s k r) = f s) : f s' = f s :=
  h.induction (I := fun x => f x = f s) rfl fun s k st r hst hs => (hput s k st r hst).trans hs

/-- The invariant rule: what each statement of a kind keeps when it is executed
is kept by a program that issues no others. -/
theorem wp_within {I : S.State → Prop} {p : Prog S α} {E : S.Err → Prop} {s : S.State}
    (hp : Within P X p) (hassert : ∀ k st old, P k st → R.asserts k st old)
    (hX : ∀ e, X e → E e)
    (hexec : ∀ k st old e, P k st → S.exec k st old = .error e → E e)
    (hstep : ∀ s k st r, P k st → I s → S.exec k st (S.get s k) = .ok r → I (S.put s k r))
    (hs : I s) : wp R p (fun _ s' => I s') E s := by
  induction p generalizing s with
  | ret a => exact hs
  | raise e => exact hX e hp
  | query next ih => exact fun v _ => ih v (hp v) hs
  | lock k next ih => exact ih _ (hp _) hs
  | tryLock k next ih => exact ⟨ih _ (hp _) hs, fun _ => ih _ (hp _) hs⟩
  | write k st next ih =>
    intro _
    refine ⟨hassert k st _ hp.1, ?_⟩
    cases hx : S.exec k st (S.get s k) with
    | ok r => exact ih hp.2 (hstep s k st r hp.1 hs hx)
    | error e => exact hexec k st _ e hp.1 hx

/-- The frame rule: a program changes at most the rows its statements write. -/
theorem wp_frame {p : Prog S α} {Q : α → S.State → Prop} {E : S.Err → Prop} {s : S.State}
    (hp : Within P X p) (hassert : ∀ k st old, P k st → R.asserts k st old)
    (hX : ∀ e, X e → E e)
    (hexec : ∀ k st old e, P k st → S.exec k st old = .error e → E e)
    (hQ : ∀ a s', Frame P s s' → Q a s') : wp R p Q E s := by
  have hframe := wp_within (I := Frame P s) hp hassert hX hexec
    (fun _ _ _ r hst hs _ => hs.put r hst) Frame.refl
  exact wp_mono p hframe (fun a s' h => hQ a s' h) fun _ he => he

end Frame

end Munavvar.Transaction
