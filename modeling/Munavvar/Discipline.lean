import Munavvar.ReadCommitted

/-!
# The discipline of a transaction

Which locks a program takes, in which order, and which statements it executes
can be read off its text: it holds whatever the rows are that it reads, as long
as plain reads agree on the immutable part and locked rows satisfy what is known
of all stored rows. What the text shows is kept by every state of every run.
-/

namespace Munavvar.Discipline

open Munavvar.Transaction
open Munavvar.Transaction.Prog
open Munavvar.ReadCommitted

/-- What is asked of a program, given the locks that its transaction holds. -/
structure Discipline (S : Schema) where
  /-- What is known of stored rows. -/
  rows : (k : S.Key) → Option (S.Row k) → Prop
  /-- The locks that may be waited for. -/
  locks : (S.Key → Prop) → S.Key → Prop
  /-- The statements that may be executed. -/
  writes : (S.Key → Prop) → (k : S.Key) → S.Stmt k → Prop

variable {S : Schema} {Op α β γ : Type}

/-- Some locks and one more. -/
def taking (H : S.Key → Prop) (k : S.Key) : S.Key → Prop := fun j => H j ∨ j = k

/-- A program keeps to a discipline, and its result and the locks that are held
in the end satisfy a condition. -/
def Obeys (D : Discipline S) (d : S.Static) :
    Prog S α → (α → (S.Key → Prop) → Prop) → (S.Key → Prop) → Prop
  | ret a, A, H => A a H
  | raise _, _, _ => True
  | query next, A, H => ∀ v, S.static v = d → Obeys D d (next v) A H
  | lock k next, A, H => D.locks H k ∧ ∀ r, D.rows k r → Obeys D d (next r) A (taking H k)
  | tryLock k next, A, H =>
    (∀ r, D.rows k r → Obeys D d (next (some r)) A (taking H k)) ∧ Obeys D d (next none) A H
  | write k st next, A, H => D.writes H k st ∧ Obeys D d next A (taking H k)

section Rules

variable {D : Discipline S} {d : S.Static} {A A' : α → (S.Key → Prop) → Prop} {H : S.Key → Prop}

@[simp] theorem obeys_ret (a : α) : Obeys D d (ret a) A H ↔ A a H := Iff.rfl

@[simp] theorem obeys_pure (a : α) : Obeys D d (pure a : Prog S α) A H ↔ A a H := Iff.rfl

@[simp] theorem obeys_raise (e : S.Err) : Obeys D d (raise e : Prog S α) A H := trivial

@[simp] theorem obeys_ask (f : S.State → α) :
    Obeys D d (ask f) A H ↔ ∀ v, S.static v = d → A (f v) H := Iff.rfl

@[simp] theorem obeys_locked (k : S.Key) {A : Option (S.Row k) → (S.Key → Prop) → Prop} :
    Obeys D d (locked k) A H ↔ D.locks H k ∧ ∀ r, D.rows k r → A r (taking H k) := Iff.rfl

@[simp] theorem obeys_unlessLocked (k : S.Key)
    {A : Option (Option (S.Row k)) → (S.Key → Prop) → Prop} :
    Obeys D d (unlessLocked k) A H ↔
      (∀ r, D.rows k r → A (some r) (taking H k)) ∧ A none H := Iff.rfl

@[simp] theorem obeys_execute (k : S.Key) (st : S.Stmt k) {A : Unit → (S.Key → Prop) → Prop} :
    Obeys D d (execute k st) A H ↔ D.writes H k st ∧ A () (taking H k) := Iff.rfl

@[simp] theorem obeys_raiseIf (c : Prop) [Decidable c] (e : S.Err)
    {A : Unit → (S.Key → Prop) → Prop} : Obeys D d (raiseIf c e) A H ↔ (¬ c → A () H) := by
  unfold raiseIf
  by_cases hc : c
  · simp only [hc, if_true, obeys_raise, not_true_eq_false, false_implies]
  · simp only [hc, if_false, obeys_ret, not_false_eq_true, true_implies]

@[simp] theorem obeys_orRaise (o : Option α) (e : S.Err) :
    Obeys D d (orRaise o e) A H ↔ ∀ a, o = some a → A a H := by
  cases o with
  | none => simp only [orRaise, obeys_raise, reduceCtorEq, false_implies, implies_true]
  | some a => simp only [orRaise, obeys_ret, Option.some.injEq, forall_eq']

@[simp] theorem obeys_fromExcept (x : Except S.Err α) :
    Obeys D d (fromExcept x) A H ↔ ∀ a, x = .ok a → A a H := by
  cases x with
  | error e => simp only [fromExcept, obeys_raise, reduceCtorEq, false_implies, implies_true]
  | ok a => simp only [fromExcept, obeys_ret, Except.ok.injEq, forall_eq']

@[simp] theorem obeys_whenever (c : Prop) [Decidable c] (p : Prog S Unit)
    {A : Unit → (S.Key → Prop) → Prop} :
    Obeys D d (whenever c p) A H ↔ (c → Obeys D d p A H) ∧ (¬ c → A () H) := by
  unfold whenever
  by_cases hc : c
  · simp only [hc, if_true, true_implies, not_true_eq_false, false_implies, and_true]
  · simp only [hc, if_false, obeys_ret, false_implies, not_false_eq_true, true_implies, true_and]

@[simp] theorem obeys_whenSome (o : Option α) (f : α → Prog S Unit)
    {A : Unit → (S.Key → Prop) → Prop} :
    Obeys D d (whenSome o f) A H ↔ (∀ a, o = some a → Obeys D d (f a) A H) ∧ (o = none → A () H) := by
  cases o with
  | none => simp only [whenSome, obeys_ret, reduceCtorEq, false_implies, implies_true,
      true_implies, true_and]
  | some a => simp only [whenSome, Option.some.injEq, forall_eq', reduceCtorEq, false_implies,
      and_true]

/-- Less may be asked of the result. -/
theorem Obeys.mono {p : Prog S α} (h : Obeys D d p A H) (hA : ∀ a H', A a H' → A' a H') :
    Obeys D d p A' H := by
  induction p generalizing H with
  | ret a => exact hA a H h
  | raise e => exact trivial
  | query next ih => exact fun v hv => ih v (h v hv)
  | lock k next ih => exact ⟨h.1, fun r hr => ih r (h.2 r hr)⟩
  | tryLock k next ih => exact ⟨fun r hr => ih _ (h.1 r hr), ih _ h.2⟩
  | write k st next ih => exact ⟨h.1, ih h.2⟩

/-- A discipline may be loosened. -/
theorem Obeys.weaken {D' : Discipline S} {p : Prog S α} (h : Obeys D d p A H)
    (hrows : ∀ k r, D'.rows k r → D.rows k r) (hlocks : ∀ H k, D.locks H k → D'.locks H k)
    (hwrites : ∀ H k st, D.writes H k st → D'.writes H k st) : Obeys D' d p A H := by
  induction p generalizing H with
  | ret a => exact h
  | raise e => exact trivial
  | query next ih => exact fun v hv => ih v (h v hv)
  | lock k next ih => exact ⟨hlocks _ _ h.1, fun r hr => ih r (h.2 r (hrows k r hr))⟩
  | tryLock k next ih => exact ⟨fun r hr => ih _ (h.1 r (hrows k r hr)), ih _ h.2⟩
  | write k st next ih => exact ⟨hwrites _ _ _ h.1, ih h.2⟩

/-- Locks that are held stay held to the end. -/
theorem Obeys.and_held {p : Prog S α} (h : Obeys D d p A H) :
    Obeys D d p (fun a H' => A a H' ∧ ∀ k, H k → H' k) H := by
  suffices hmain : ∀ H₀ : S.Key → Prop, (∀ k, H₀ k → H k) →
      Obeys D d p (fun a H' => A a H' ∧ ∀ k, H₀ k → H' k) H from hmain H fun _ hk => hk
  intro H₀ hH₀
  induction p generalizing H with
  | ret a => exact ⟨h, hH₀⟩
  | raise e => exact trivial
  | query next ih => exact fun v hv => ih v (h v hv) hH₀
  | lock k next ih =>
    exact ⟨h.1, fun r hr => ih r (h.2 r hr) fun j hj => .inl (hH₀ j hj)⟩
  | tryLock k next ih =>
    exact ⟨fun r hr => ih _ (h.1 r hr) fun j hj => .inl (hH₀ j hj), ih _ h.2 hH₀⟩
  | write k st next ih => exact ⟨h.1, ih h.2 fun j hj => .inl (hH₀ j hj)⟩

/-- A sequence keeps to a discipline if its parts do. -/
theorem obeys_bind' (p : Prog S α) (f : α → Prog S β) {A : β → (S.Key → Prop) → Prop} :
    Obeys D d (p.bind f) A H ↔ Obeys D d p (fun a H' => Obeys D d (f a) A H') H := by
  induction p generalizing H with
  | ret a => exact Iff.rfl
  | raise e => exact Iff.rfl
  | query next ih => exact forall_congr' fun v => imp_congr_right fun _ => ih v
  | lock k next ih =>
    exact and_congr_right fun _ => forall_congr' fun r => imp_congr_right fun _ => ih r
  | tryLock k next ih =>
    exact and_congr (forall_congr' fun r => imp_congr_right fun _ => ih _) (ih _)
  | write k st next ih => exact and_congr_right fun _ => ih

theorem obeys_bind (p : Prog S α) (f : α → Prog S β) {A : β → (S.Key → Prop) → Prop} :
    Obeys D d (p >>= f) A H ↔ Obeys D d p (fun a H' => Obeys D d (f a) A H') H :=
  obeys_bind' p f

/-- The loop rule: what one round keeps for the elements still to come holds at the end. -/
theorem obeys_forEach {f : β → Prog S Unit} (I : List β → (S.Key → Prop) → Prop)
    (hround : ∀ b bs H, I (b :: bs) H → Obeys D d (f b) (fun _ H' => I bs H') H) {bs : List β}
    (h : I bs H) : Obeys D d (forEach bs f) (fun _ H' => I [] H') H := by
  induction bs generalizing H with
  | nil => exact h
  | cons b bs ih =>
    rw [forEach, obeys_bind']
    exact (hround b bs H h).mono fun _ H' h' => ih h'

/-- The loop rule for a loop that keeps its results. -/
theorem obeys_collect {f : β → Prog S γ} (I : List β → List γ → (S.Key → Prop) → Prop)
    (hround : ∀ b bs cs H, I (b :: bs) cs H →
      Obeys D d (f b) (fun c H' => I bs (cs ++ [c]) H') H) {bs : List β}
    (h : I bs [] H) : Obeys D d (collect bs f) (fun ds H' => I [] ds H') H := by
  have hmain : ∀ (bs : List β) (cs : List γ) (H : S.Key → Prop), I bs cs H →
      Obeys D d (collect bs f) (fun ds H' => I [] (cs ++ ds) H') H := by
    intro bs
    induction bs with
    | nil =>
      intro cs H h
      rw [collect, obeys_ret, List.append_nil]
      exact h
    | cons b bs ih =>
      intro cs H h
      rw [collect, obeys_bind']
      refine (hround b bs cs H h).mono fun c H' h' => ?_
      rw [obeys_bind']
      refine (ih _ H' h').mono fun ds H'' h'' => ?_
      rw [obeys_ret]
      simpa only [List.append_assoc, List.singleton_append] using h''
  exact hmain bs [] H h

/-- A program whose statements stay within a kind that may always be executed,
and that may wait for every lock. -/
theorem obeys_of_within {P : (k : S.Key) → S.Stmt k → Prop} {X : S.Err → Prop} {p : Prog S α}
    (hp : Within P X p) (hlocks : ∀ H k, D.locks H k)
    (hwrites : ∀ H k st, P k st → D.writes H k st) : Obeys D d p (fun _ _ => True) H := by
  induction p generalizing H with
  | ret a => exact trivial
  | raise e => exact trivial
  | query next ih => exact fun v _ => ih v (hp v)
  | lock k next ih => exact ⟨hlocks H k, fun r _ => ih r (hp r)⟩
  | tryLock k next ih => exact ⟨fun r _ => ih _ (hp _), ih _ (hp _)⟩
  | write k st next ih => exact ⟨hwrites H k st hp.1, ih hp.2⟩

end Rules

/-! ## Rows -/

/-- What is known of all rows is kept by a program that executes statements which keep it. -/
theorem wp_of_obeys {R : Regime S} {D : Discipline S} {H : S.Key → Prop} {s : S.State}
    {A : α → (S.Key → Prop) → Prop} {p : Prog S α} (hsound : R.Sound) (hlax : R.Lax)
    (hwrites : ∀ H k st old r, D.writes H k st → D.rows k old → S.exec k st old = .ok r →
      D.rows k r)
    (hp : Obeys D (S.static s) p A H) (hrows : ∀ k, D.rows k (S.get s k)) :
    wp R p (fun a s' => (∃ H', A a H') ∧ S.static s' = S.static s ∧ ∀ k, D.rows k (S.get s' k))
      (fun _ => True) s := by
  suffices hmain : ∀ s' : S.State, S.static s' = S.static s → (∀ k, D.rows k (S.get s' k)) →
      wp R p (fun a s' => (∃ H', A a H') ∧ S.static s' = S.static s ∧
        ∀ k, D.rows k (S.get s' k)) (fun _ => True) s' from hmain s rfl hrows
  intro s' hstatic hrows
  induction p generalizing H s' with
  | ret a => exact ⟨⟨H, hp⟩, hstatic, hrows⟩
  | raise e => exact trivial
  | query next ih => exact fun v hv => ih v (hp v ((hsound _ _ hv).trans hstatic)) s' hstatic hrows
  | lock k next ih => exact ih _ (hp.2 _ (hrows k)) s' hstatic hrows
  | tryLock k next ih =>
    exact ⟨ih _ (hp.1 _ (hrows k)) s' hstatic hrows, fun _ => ih _ hp.2 s' hstatic hrows⟩
  | write k st next ih =>
    intro _
    refine ⟨hlax _ _ _, ?_⟩
    split
    · next r hr =>
      refine ih hp.2 _ ((S.static_put _ _ _).trans hstatic) fun j => ?_
      by_cases hj : j = k
      · subst hj
        rw [S.get_put_self]
        exact hwrites H j st _ r hp.1 (hrows j) hr
      · rw [S.get_put_ne _ _ _ _ hj]
        exact hrows j
    · exact trivial

/-- What statements under the locks of a transaction keep of a row, its writes keep of all rows. -/
theorem rows_of_explains {D : Discipline S} {p q : Prog S Unit} {A : Unit → (S.Key → Prop) → Prop}
    {assumes : (k : S.Key) → S.Stmt k → Option (S.Row k) → Prop} {held : S.Key → Prop}
    {s : S.State} {writes : List (RowWrite S)}
    {Rel : (k : S.Key) → Option (S.Row k) → Option (S.Row k) → Prop} (hrows : ∀ k r, D.rows k r)
    (hp : Obeys D (S.static s) p A fun _ => False) (hrefl : ∀ k r, Rel k r r)
    (hstep : ∀ {H k st old mid r}, (∀ j, H j → held j) → D.writes H k st → Rel k old mid →
      S.exec k st mid = .ok r → Rel k old r)
    (h : Explains assumes held s p q writes) :
    (∃ H, (∀ j, H j → held j) ∧ Obeys D (S.static s) q A H) ∧
      ∀ k, Rel k (S.get s k) (S.get (view s writes) k) := by
  induction h with
  | start => exact ⟨⟨_, fun _ hj => hj.elim, hp⟩, fun k => hrefl k _⟩
  | query v _ hv ih =>
    obtain ⟨⟨H, hH, hobeys⟩, hrel⟩ := ih
    exact ⟨⟨H, hH, hobeys v hv⟩, hrel⟩
  | lock _ hk ih =>
    obtain ⟨⟨H, hH, hobeys⟩, hrel⟩ := ih
    refine ⟨⟨_, ?_, hobeys.2 _ (hrows _ _)⟩, hrel⟩
    rintro j (hj | rfl)
    exacts [hH j hj, hk]
  | tryLock _ hk ih =>
    obtain ⟨⟨H, hH, hobeys⟩, hrel⟩ := ih
    refine ⟨⟨_, ?_, hobeys.1 _ (hrows _ _)⟩, hrel⟩
    rintro j (hj | rfl)
    exacts [hH j hj, hk]
  | skip _ ih =>
    obtain ⟨⟨H, hH, hobeys⟩, hrel⟩ := ih
    exact ⟨⟨H, hH, hobeys.2⟩, hrel⟩
  | @write k st next writes r _ hk _ hexec ih =>
    obtain ⟨⟨H, hH, hobeys⟩, hrel⟩ := ih
    refine ⟨⟨_, ?_, hobeys.2⟩, fun j => ?_⟩
    · rintro j (hj | rfl)
      exacts [hH j hj, hk]
    · rw [view_concat]
      by_cases hj : j = k
      · subst hj
        rw [S.get_put_self]
        exact hstep hH hobeys.1 (hrel j) hexec
      · rw [S.get_put_ne _ _ _ _ hj]
        exact hrel j
  | fail _ _ _ _ ih =>
    obtain ⟨⟨H, hH, -⟩, hrel⟩ := ih
    exact ⟨⟨H, hH, trivial⟩, hrel⟩

/-! ## Runs -/

/-- In a state of a run, what every running transaction still has to execute
keeps to the discipline of its operation. -/
structure Disciplined (D : Op → Discipline S) (d : S.Static) (σ : Sys S Op) : Prop where
  /-- The immutable part. -/
  static_eq : S.static σ.db = d
  /-- What is still to be executed, given the locks that are held. -/
  obeys : ∀ t x, σ.txns t = some x →
    Obeys (D x.op) d x.prog (fun _ _ => True) fun k => σ.holder k = some t
  /-- Only running transactions hold locks. -/
  idle : ∀ t, σ.txns t = none → ∀ k, σ.holder k ≠ some t

section Runs

variable {D : Op → Discipline S} {d : S.Static} {σ σ' : Sys S Op} {program : Op → Prog S Unit}
  {assumes : (k : S.Key) → S.Stmt k → Option (S.Row k) → Prop}

theorem init_disciplined (db : S.State) :
    Disciplined D (S.static db) (Sys.init db : Sys S Op) where
  static_eq := rfl
  obeys t x hx := absurd hx (by simp [Sys.init])
  idle t _ k := by simp [Sys.init]

/-- A lock that is taken is held besides those that were. -/
theorem acquire_eq {t : Tid} {k : S.Key} (hfree : σ.Free t k) :
    (fun j => σ.acquire t k j = some t) = taking (fun j => σ.holder j = some t) k := by
  funext j
  by_cases hj : j = k
  · subst hj
    simp [Sys.acquire_self, taking]
  · simp [Sys.acquire, Function.update_of_ne hj, taking, hj]

/-- Continuing one transaction keeps the discipline of the others. -/
theorem Disciplined.resume {t : Tid} {x : Txn S Op} {holder : S.Key → Option Tid}
    (h : Disciplined D d σ)
    (hx : Obeys (D x.op) d x.prog (fun _ _ => True) fun k => holder k = some t)
    (hothers : ∀ u k, u ≠ t → (holder k = some u ↔ σ.holder k = some u)) :
    Disciplined D d (σ.resume t x holder) where
  static_eq := h.static_eq
  obeys u y hy := by
    rcases Sys.resume_cases hy with ⟨rfl, rfl⟩ | ⟨hu, hy⟩
    · exact hx
    · have hsame : (fun k => holder k = some u) = fun k => σ.holder k = some u :=
        funext fun k => propext (hothers u k hu)
      change Obeys (D y.op) d y.prog _ fun k => holder k = some u
      rw [hsame]
      exact h.obeys u y hy
  idle u hy k := by
    dsimp only [Sys.resume] at hy ⊢
    by_cases hu : u = t
    · rw [hu, Function.update_self] at hy
      cases hy
    · rw [Function.update_of_ne hu] at hy
      exact fun hk => h.idle u hy k ((hothers u k hu).mp hk)

/-- A transaction that ends leaves the others their locks. -/
theorem Disciplined.finish {t : Tid} {db : S.State} (h : Disciplined D d σ)
    (hstatic : S.static db = d) : Disciplined D d (σ.finish t db) where
  static_eq := hstatic
  obeys u y hy := by
    obtain ⟨hu, hy⟩ := Sys.finish_cases hy
    have hsame : (fun k => σ.release t k = some u) = fun k => σ.holder k = some u :=
      funext fun k => propext (Sys.release_others hu k)
    change Obeys (D y.op) d y.prog _ fun k => σ.release t k = some u
    rw [hsame]
    exact h.obeys u y hy
  idle u hy k := by
    dsimp only [Sys.finish] at hy ⊢
    by_cases hu : u = t
    · rw [hu]
      exact Sys.release_self k
    · rw [Function.update_of_ne hu] at hy
      exact fun hk => h.idle u hy k ((Sys.release_others hu k).mp hk)

/-- A program step keeps the discipline. -/
theorem Disciplined.steps {t : Tid} {x y : Txn S Op} {holder : S.Key → Option Tid}
    (hrows : ∀ op k r, (D op).rows k r) (h : Disciplined D d σ) (hx : σ.txns t = some x)
    (hsteps : σ.Steps t x y holder) : Disciplined D d (σ.resume t y holder) := by
  have hobeys := h.obeys t x hx
  have hothers : ∀ u k, u ≠ t → (holder k = some u ↔ σ.holder k = some u) :=
    fun u k hu => hsteps.others hu k
  cases hsteps with
  | query => exact h.resume (hobeys _ ((static_view σ.db _).trans h.static_eq)) hothers
  | lock hfree =>
    refine h.resume ?_ hothers
    rw [acquire_eq hfree]
    exact hobeys.2 _ (hrows _ _ _)
  | tryLock hfree =>
    refine h.resume ?_ hothers
    rw [acquire_eq hfree]
    exact hobeys.1 _ (hrows _ _ _)
  | skip hheld => exact h.resume hobeys.2 hothers
  | write hfree _ =>
    refine h.resume ?_ hothers
    rw [acquire_eq hfree]
    exact hobeys.2
  | fail _ _ => exact h.resume trivial hothers

/-- Every state of a run keeps to the disciplines that the programs keep to. -/
theorem Reach.disciplined {db : S.State} (hrows : ∀ op k r, (D op).rows k r)
    (hprogram : ∀ op, Obeys (D op) (S.static db) (program op) (fun _ _ => True) fun _ => False)
    (h : Reach program assumes (Sys.init db) σ) : Disciplined D (S.static db) σ := by
  induction h with
  | init => exact init_disciplined db
  | @next σ σ' a _ _ hexec ih =>
    cases a with
    | start t op =>
      obtain ⟨hnone, rfl⟩ := Sys.start_cases hexec
      refine ih.resume ?_ fun _ _ _ => Iff.rfl
      have hempty : (fun k => σ.holder k = some t) = fun _ => False :=
        funext fun k => eq_false (ih.idle t hnone k)
      rw [hempty]
      exact hprogram op
    | step t =>
      obtain ⟨x, y, holder, hx, rfl, hsteps⟩ := Sys.step_cases hexec
      exact ih.steps hrows hx hsteps
    | commit t =>
      obtain ⟨x, u, -, -, rfl⟩ := Sys.commit_cases hexec
      exact ih.finish ((static_view σ.db _).trans ih.static_eq)
    | rollback t =>
      obtain ⟨x, -, rfl⟩ := Sys.rollback_cases hexec
      exact ih.finish ih.static_eq

end Runs

end Munavvar.Discipline
