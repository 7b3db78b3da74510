import Munavvar.Discipline

/-!
# Transactions under interference

Other transactions commit between the steps of a transaction. What they may do
to the committed state depends on the locks that the transaction holds, and it
is all that the transaction relies on: a program is judged in every state that
the others can have left before each of its steps. What a program meets when it
is judged so, it meets in every run in which the others keep to the relation.
-/

namespace Munavvar.Interference

open Munavvar.Transaction
open Munavvar.Transaction.Prog
open Munavvar.ReadCommitted
open Munavvar.Discipline

/-- What surrounds a transaction that holds some locks. -/
structure Surroundings (S : Schema) where
  /-- How the others may change the committed state. -/
  rely : (S.Key → Prop) → S.State → S.State → Prop
  /-- The locks that may be found taken when they are only tried. -/
  skips : S.State → S.Key → Prop

/-- A condition on the locks and the writes of a transaction and on the committed state. -/
abbrev Assertion (S : Schema) := (S.Key → Prop) → List (RowWrite S) → S.State → Prop

variable {S : Schema} {Op α β : Type}

/-- A program ends in a condition, or with an exception and in a condition of the
exception, whatever the others do before each of its steps. -/
def Ends (G : Surroundings S) :
    Prog S α → (α → Assertion S) → (S.Err → Assertion S) → Assertion S
  | ret a, Q, _, H, W, s => Q a H W s
  | raise e, _, E, H, W, s => E e H W s
  | query next, Q, E, H, W, s => ∀ s', G.rely H s s' → Ends G (next (view s' W)) Q E H W s'
  | lock k next, Q, E, H, W, s =>
    ∀ s', G.rely H s s' → Ends G (next (S.get (view s' W) k)) Q E (taking H k) W s'
  | tryLock k next, Q, E, H, W, s =>
    ∀ s', G.rely H s s' →
      Ends G (next (some (S.get (view s' W) k))) Q E (taking H k) W s' ∧
        (G.skips s' k → Ends G (next none) Q E H W s')
  | write k st next, Q, E, H, W, s =>
    ∀ s', G.rely H s s' →
      (∀ r, S.exec k st (S.get (view s' W) k) = .ok r →
        Ends G next Q E (taking H k) (W ++ [⟨k, r⟩]) s') ∧
      ∀ e, S.exec k st (S.get (view s' W) k) = .error e → E e (taking H k) W s'

/-- A program meets a condition in the end, whatever the others do before each of its steps. -/
def Among (G : Surroundings S) : Prog S α → (α → Assertion S) → Assertion S
  | ret a, Q, H, W, s => Q a H W s
  | raise _, _, _, _, _ => True
  | query next, Q, H, W, s => ∀ s', G.rely H s s' → Among G (next (view s' W)) Q H W s'
  | lock k next, Q, H, W, s =>
    ∀ s', G.rely H s s' → Among G (next (S.get (view s' W) k)) Q (taking H k) W s'
  | tryLock k next, Q, H, W, s =>
    ∀ s', G.rely H s s' →
      Among G (next (some (S.get (view s' W) k))) Q (taking H k) W s' ∧
        (G.skips s' k → Among G (next none) Q H W s')
  | write k st next, Q, H, W, s =>
    ∀ s', G.rely H s s' → ∀ r, S.exec k st (S.get (view s' W) k) = .ok r →
      Among G next Q (taking H k) (W ++ [⟨k, r⟩]) s'

section Rules

variable {G : Surroundings S} {Q Q' : α → Assertion S} {E E' : S.Err → Assertion S}
  {H : S.Key → Prop} {W : List (RowWrite S)} {s : S.State}

/-- Less may be asked of the result and of the exceptions. -/
theorem Ends.mono {p : Prog S α} (h : Ends G p Q E H W s) (hQ : ∀ a H W s, Q a H W s → Q' a H W s)
    (hE : ∀ e H W s, E e H W s → E' e H W s) : Ends G p Q' E' H W s := by
  induction p generalizing H W s with
  | ret a => exact hQ a H W s h
  | raise e => exact hE e H W s h
  | query next ih => exact fun s' hs' => ih _ (h s' hs')
  | lock k next ih => exact fun s' hs' => ih _ (h s' hs')
  | tryLock k next ih => exact fun s' hs' => ⟨ih _ (h s' hs').1, fun hk => ih _ ((h s' hs').2 hk)⟩
  | write k st next ih =>
    exact fun s' hs' => ⟨fun r hr => ih ((h s' hs').1 r hr),
      fun e he => hE e _ _ _ ((h s' hs').2 e he)⟩

/-- Two conditions are met together. -/
theorem Ends.and {p : Prog S α} (h : Ends G p Q E H W s) (h' : Ends G p Q' E' H W s) :
    Ends G p (fun a H W s => Q a H W s ∧ Q' a H W s) (fun e H W s => E e H W s ∧ E' e H W s)
      H W s := by
  induction p generalizing H W s with
  | ret a => exact ⟨h, h'⟩
  | raise e => exact ⟨h, h'⟩
  | query next ih => exact fun s' hs' => ih _ (h s' hs') (h' s' hs')
  | lock k next ih => exact fun s' hs' => ih _ (h s' hs') (h' s' hs')
  | tryLock k next ih =>
    exact fun s' hs' => ⟨ih _ (h s' hs').1 (h' s' hs').1, fun hk =>
      ih _ ((h s' hs').2 hk) ((h' s' hs').2 hk)⟩
  | write k st next ih =>
    exact fun s' hs' => ⟨fun r hr => ih ((h s' hs').1 r hr) ((h' s' hs').1 r hr),
      fun e he => ⟨(h s' hs').2 e he, (h' s' hs').2 e he⟩⟩

theorem ends_trivial (p : Prog S α) :
    Ends G p (fun _ _ _ _ => True) (fun _ _ _ _ => True) H W s := by
  induction p generalizing H W s with
  | ret a => exact trivial
  | raise e => exact trivial
  | query next ih => exact fun s' _ => ih _
  | lock k next ih => exact fun s' _ => ih _
  | tryLock k next ih => exact fun s' _ => ⟨ih _, fun _ => ih _⟩
  | write k st next ih => exact fun s' _ => ⟨fun r _ => ih, fun _ _ => trivial⟩

theorem ends_bind' (p : Prog S α) (f : α → Prog S β) {Q : β → Assertion S} :
    Ends G (p.bind f) Q E H W s ↔ Ends G p (fun a => Ends G (f a) Q E) E H W s := by
  induction p generalizing H W s with
  | ret a => exact Iff.rfl
  | raise e => exact Iff.rfl
  | query next ih => exact forall_congr' fun s' => imp_congr_right fun _ => ih _
  | lock k next ih => exact forall_congr' fun s' => imp_congr_right fun _ => ih _
  | tryLock k next ih =>
    exact forall_congr' fun s' => imp_congr_right fun _ =>
      and_congr (ih _) (imp_congr_right fun _ => ih _)
  | write k st next ih =>
    exact forall_congr' fun s' => imp_congr_right fun _ =>
      and_congr_left fun _ => forall_congr' fun r => imp_congr_right fun _ => ih

/-- A sequence is judged part by part. -/
theorem ends_bind (p : Prog S α) (f : α → Prog S β) {Q : β → Assertion S} :
    Ends G (p >>= f) Q E H W s ↔ Ends G p (fun a => Ends G (f a) Q E) E H W s := ends_bind' p f

theorem ends_raiseIf (c : Prop) [Decidable c] (e : S.Err) {Q : Unit → Assertion S} :
    Ends G (raiseIf c e) Q E H W s ↔ (c → E e H W s) ∧ (¬ c → Q () H W s) := by
  unfold raiseIf
  by_cases hc : c
  · simp only [hc, if_true, true_implies, not_true_eq_false, false_implies, and_true]
    exact Iff.rfl
  · simp only [hc, if_false, false_implies, not_false_eq_true, true_implies, true_and]
    exact Iff.rfl

theorem ends_orRaise (o : Option α) (e : S.Err) :
    Ends G (orRaise o e) Q E H W s ↔ (o = none → E e H W s) ∧ ∀ a, o = some a → Q a H W s := by
  cases o with
  | none => exact ⟨fun h => ⟨fun _ => h, fun a ha => absurd ha (by simp)⟩, fun h => h.1 rfl⟩
  | some a =>
    exact ⟨fun h => ⟨fun ha => absurd ha (by simp), fun b hb => Option.some.inj hb ▸ h⟩,
      fun h => h.2 a rfl⟩

/-- The loop rule: what one round keeps for the elements still to come holds at the end. -/
theorem ends_forEach {f : β → Prog S Unit} (I : List β → Assertion S) {bs : List β}
    (hround : ∀ b ∈ bs, ∀ todo H W s, I (b :: todo) H W s →
      Ends G (f b) (fun _ => I todo) E H W s)
    (h : I bs H W s) : Ends G (forEach bs f) (fun _ => I []) E H W s := by
  induction bs generalizing H W s with
  | nil => exact h
  | cons b bs ih =>
    rw [forEach, ends_bind']
    refine (hround b List.mem_cons_self bs H W s h).mono (fun _ H W s h' => ?_) fun _ _ _ _ he => he
    exact ih (fun b' hb' => hround b' (List.mem_cons_of_mem b hb')) h'

/-- A condition that survives what the others do, and more locks. -/
structure Stable (G : Surroundings S) (I : Assertion S) : Prop where
  /-- The others keep it. -/
  rely : ∀ {H W s s'}, I H W s → G.rely H s s' → I H W s'
  /-- A lock more does not hurt. -/
  lock : ∀ {H W s k}, I H W s → I (taking H k) W s

/-- A condition may be asked for in some cases only. -/
theorem Stable.imp {I : Assertion S} (hI : Stable G I) (p : Prop) :
    Stable G fun H W s => p → I H W s where
  rely h hs hp := hI.rely (h hp) hs
  lock h hp := hI.lock (h hp)

theorem Stable.or {I J : Assertion S} (hI : Stable G I) (hJ : Stable G J) :
    Stable G fun H W s => I H W s ∨ J H W s where
  rely h hs := h.imp (fun h => hI.rely h hs) fun h => hJ.rely h hs
  lock h := h.imp (fun h => hI.lock h) fun h => hJ.lock h

theorem Stable.and {I J : Assertion S} (hI : Stable G I) (hJ : Stable G J) :
    Stable G fun H W s => I H W s ∧ J H W s where
  rely h hs := ⟨hI.rely h.1 hs, hJ.rely h.2 hs⟩
  lock h := ⟨hI.lock h.1, hJ.lock h.2⟩

/-- The frame rule: what the statements of a kind keep is kept by a program that
executes no others. -/
theorem ends_within {P : (k : S.Key) → S.Stmt k → Prop} {X : S.Err → Prop} {I : Assertion S}
    (hI : Stable G I)
    (hwrite : ∀ {H W s k st r}, P k st → I H W s → S.exec k st (S.get (view s W) k) = .ok r →
      I (taking H k) (W ++ [⟨k, r⟩]) s)
    (hexec : ∀ {H W s k st e}, P k st → I H W s → S.exec k st (S.get (view s W) k) = .error e →
      E e (taking H k) W s)
    (hraise : ∀ {H W s e}, X e → I H W s → E e H W s)
    {p : Prog S α} (hp : Within P X p) (h : I H W s) : Ends G p (fun _ => I) E H W s := by
  induction p generalizing H W s with
  | ret a => exact h
  | raise e => exact hraise hp h
  | query next ih => exact fun s' hs' => ih _ (hp _) (hI.rely h hs')
  | lock k next ih => exact fun s' hs' => ih _ (hp _) (hI.lock (hI.rely h hs'))
  | tryLock k next ih =>
    exact fun s' hs' => ⟨ih _ (hp _) (hI.lock (hI.rely h hs')), fun _ => ih _ (hp _) (hI.rely h hs')⟩
  | write k st next ih =>
    exact fun s' hs' => ⟨fun r hr => ih hp.2 (hwrite hp.1 (hI.rely h hs') hr),
      fun e he => hexec hp.1 (hI.rely h hs') he⟩

/-! ## Results only -/

/-- The exceptions may be left out of sight. -/
theorem among_iff {p : Prog S α} :
    Among G p Q H W s ↔ Ends G p Q (fun _ _ _ _ => True) H W s := by
  induction p generalizing H W s with
  | ret a => exact Iff.rfl
  | raise e => exact Iff.rfl
  | query next ih => exact forall_congr' fun s' => imp_congr_right fun _ => ih _
  | lock k next ih => exact forall_congr' fun s' => imp_congr_right fun _ => ih _
  | tryLock k next ih =>
    exact forall_congr' fun s' => imp_congr_right fun _ =>
      and_congr (ih _) (imp_congr_right fun _ => ih _)
  | write k st next ih =>
    refine forall_congr' fun s' => imp_congr_right fun _ => ?_
    refine Iff.trans ?_ (and_iff_left fun _ _ => trivial).symm
    exact forall_congr' fun r => imp_congr_right fun _ => ih

theorem Among.mono {p : Prog S α} (h : Among G p Q H W s) (hQ : ∀ a H W s, Q a H W s → Q' a H W s) :
    Among G p Q' H W s :=
  among_iff.mpr ((among_iff.mp h).mono hQ fun _ _ _ _ he => he)

theorem Among.and {p : Prog S α} (h : Among G p Q H W s) (h' : Among G p Q' H W s) :
    Among G p (fun a H W s => Q a H W s ∧ Q' a H W s) H W s :=
  among_iff.mpr (((among_iff.mp h).and (among_iff.mp h')).mono (fun _ _ _ _ hQ => hQ)
    fun _ _ _ _ _ => trivial)

theorem among_trivial (p : Prog S α) : Among G p (fun _ _ _ _ => True) H W s :=
  among_iff.mpr (ends_trivial p)

theorem among_ret (a : α) : Among G (ret a) Q H W s ↔ Q a H W s := Iff.rfl

theorem among_bind (p : Prog S α) (f : α → Prog S β) {Q : β → Assertion S} :
    Among G (p >>= f) Q H W s ↔ Among G p (fun a => Among G (f a) Q) H W s := by
  have hparts : (fun a => Among G (f a) Q) = fun a => Ends G (f a) Q fun _ _ _ _ => True := by
    funext a H W s
    exact propext among_iff
  rw [among_iff, ends_bind, hparts, among_iff]

theorem among_raiseIf (c : Prop) [Decidable c] (e : S.Err) {Q : Unit → Assertion S} :
    Among G (raiseIf c e) Q H W s ↔ (¬ c → Q () H W s) := by
  rw [among_iff, ends_raiseIf]
  exact and_iff_right fun _ => trivial

theorem among_orRaise (o : Option α) (e : S.Err) :
    Among G (orRaise o e) Q H W s ↔ ∀ a, o = some a → Q a H W s := by
  rw [among_iff, ends_orRaise]
  exact and_iff_right fun _ => trivial

theorem among_forEach {f : β → Prog S Unit} (I : List β → Assertion S) {bs : List β}
    (hround : ∀ b ∈ bs, ∀ todo H W s, I (b :: todo) H W s →
      Among G (f b) (fun _ => I todo) H W s)
    (h : I bs H W s) : Among G (forEach bs f) (fun _ => I []) H W s :=
  among_iff.mpr (ends_forEach I (fun b hb todo H W s hI =>
    among_iff.mp (hround b hb todo H W s hI)) h)

theorem among_within {P : (k : S.Key) → S.Stmt k → Prop} {X : S.Err → Prop} {I : Assertion S}
    (hI : Stable G I)
    (hwrite : ∀ {H W s k st r}, P k st → I H W s → S.exec k st (S.get (view s W) k) = .ok r →
      I (taking H k) (W ++ [⟨k, r⟩]) s)
    {p : Prog S α} (hp : Within P X p) (h : I H W s) : Among G p (fun _ => I) H W s :=
  among_iff.mpr (ends_within hI hwrite (fun _ _ _ => trivial) (fun _ _ => trivial) hp h)

end Rules

/-! ## Runs -/

/-- Runs in which every decision meets a condition. -/
inductive Runs (program : Op → Prog S Unit) (cond : Sys S Op → Action Op → Prop) (σ₀ : Sys S Op) :
    Sys S Op → Prop
  /-- The start of a run. -/
  | init : Runs program cond σ₀ σ₀
  /-- One more decision. -/
  | next {σ σ' : Sys S Op} (a : Action Op) :
    Runs program cond σ₀ σ → cond σ a → σ.exec program a = some σ' → Runs program cond σ₀ σ'

/-- The surroundings stay the same when nothing happens, and what the others do adds up. -/
structure Surroundings.Lawful (G : Surroundings S) : Prop where
  /-- Nothing may happen. -/
  refl : ∀ H s, G.rely H s s
  /-- Changes add up. -/
  trans : ∀ {H s s' s''}, G.rely H s s' → G.rely H s' s'' → G.rely H s s''

/-- In a state of a run, what every transaction still has to execute ends as the
conditions of its operation say. -/
def Judged (G : Op → Surroundings S) (Q : Op → Assertion S) (E : Op → S.Err → Assertion S)
    (σ : Sys S Op) : Prop :=
  ∀ t x, σ.txns t = some x → ∃ s, (G x.op).rely (fun k => σ.holder k = some t) s σ.db ∧
    Ends (G x.op) x.prog (fun _ => Q x.op) (E x.op) (fun k => σ.holder k = some t) x.writes s

/-- In a state of a run, what every transaction still has to execute meets the
condition of its operation in the end. -/
def Supported (G : Op → Surroundings S) (Q : Op → Assertion S) (σ : Sys S Op) : Prop :=
  ∀ t x, σ.txns t = some x → ∃ s, (G x.op).rely (fun k => σ.holder k = some t) s σ.db ∧
    Among (G x.op) x.prog (fun _ => Q x.op) (fun k => σ.holder k = some t) x.writes s

section Runs

variable {program : Op → Prog S Unit} {cond : Sys S Op → Action Op → Prop} {σ₀ σ σ' : Sys S Op}
  {G : Op → Surroundings S} {Q : Op → Assertion S} {E : Op → S.Err → Assertion S}

theorem Runs.reach (h : Runs program cond σ₀ σ) : Reach program (fun _ _ _ => True) σ₀ σ := by
  induction h with
  | init => exact .init
  | next a _ _ hexec ih =>
    refine ih.next a ?_ hexec
    cases a with
    | step t => exact fun _ _ _ _ _ _ => trivial
    | _ => exact trivial

/-- Decisions that a checked execution carries out one after another are a run. -/
theorem Runs.of_fold {I : Sys S Op → Prop} {exec : Sys S Op → Action Op → Option (Sys S Op)}
    (hexec : ∀ τ a τ', I τ → exec τ a = some τ' →
      cond τ a ∧ τ.exec program a = some τ' ∧ I τ') (h₀ : I σ₀) (actions : List (Action Op))
    (h : actions.foldlM exec σ₀ = some σ) : Runs program cond σ₀ σ := by
  have hrun : ∀ (actions : List (Action Op)) (τ : Sys S Op), Runs program cond σ₀ τ → I τ →
      actions.foldlM exec τ = some σ → Runs program cond σ₀ σ := by
    intro actions
    induction actions with
    | nil =>
      intro τ hτ _ hfold
      cases hfold
      exact hτ
    | cons a actions ih =>
      intro τ hτ hI hfold
      obtain ⟨τ', hstep, hfold⟩ := Option.bind_eq_some_iff.mp hfold
      obtain ⟨hcond, hstep, hI'⟩ := hexec τ a τ' hI hstep
      exact ih τ' (hτ.next a hcond hstep) hI' hfold
  exact hrun actions σ₀ .init h₀ h

theorem init_judged (db : S.State) : Judged G Q E (Sys.init db : Sys S Op) :=
  fun _ _ hx => absurd hx (by simp [Sys.init])

/-- A transaction that has nothing left to execute meets its condition. -/
theorem Judged.ended (h : Judged G Q E σ)
    (hstable : ∀ op H W s s', Q op H W s → (G op).rely H s s' → Q op H W s') {t : Tid}
    {x : Txn S Op} {u : Unit} (hx : σ.txns t = some x) (hret : x.prog = .ret u) :
    Q x.op (fun k => σ.holder k = some t) x.writes σ.db := by
  obtain ⟨s, hrely, hends⟩ := h t x hx
  rw [hret] at hends
  exact hstable _ _ _ _ _ hends hrely

/-- A transaction that has failed meets the condition of its exception. -/
theorem Judged.failed (h : Judged G Q E σ)
    (hstable : ∀ op e H W s s', E op e H W s → (G op).rely H s s' → E op e H W s') {t : Tid}
    {x : Txn S Op} {e : S.Err} (hx : σ.txns t = some x) (hraise : x.prog = .raise e) :
    E x.op e (fun k => σ.holder k = some t) x.writes σ.db := by
  obtain ⟨s, hrely, hends⟩ := h t x hx
  rw [hraise] at hends
  exact hstable _ _ _ _ _ _ hends hrely

/-- One transaction goes on and the others keep their locks. -/
theorem Judged.resume (h : Judged G Q E σ) (hG : ∀ op, (G op).Lawful) {t : Tid} {x : Txn S Op}
    {holder : S.Key → Option Tid}
    (hx : Ends (G x.op) x.prog (fun _ => Q x.op) (E x.op) (fun k => holder k = some t) x.writes
      σ.db)
    (hothers : ∀ u k, u ≠ t → (holder k = some u ↔ σ.holder k = some u)) :
    Judged G Q E (σ.resume t x holder) := by
  intro u y hy
  rcases Sys.resume_cases hy with ⟨rfl, rfl⟩ | ⟨hu, hy⟩
  · exact ⟨σ.db, (hG y.op).refl _ _, hx⟩
  · have hsame : (fun k => holder k = some u) = fun k => σ.holder k = some u :=
      funext fun k => propext (hothers u k hu)
    dsimp only [Sys.resume]
    rw [hsame]
    exact h u y hy

/-- A transaction ends and the others rely on what it leaves. -/
theorem Judged.finish (h : Judged G Q E σ) (hG : ∀ op, (G op).Lawful) {t : Tid} {db : S.State}
    (hrely : ∀ u y, u ≠ t → σ.txns u = some y →
      (G y.op).rely (fun k => σ.holder k = some u) σ.db db) :
    Judged G Q E (σ.finish t db) := by
  intro u y hy
  obtain ⟨hu, hy⟩ := Sys.finish_cases hy
  have hsame : (fun k => σ.release t k = some u) = fun k => σ.holder k = some u :=
    funext fun k => propext (Sys.release_others hu k)
  dsimp only [Sys.finish]
  rw [hsame]
  obtain ⟨s, hs, hends⟩ := h u y hy
  exact ⟨s, (hG y.op).trans hs (hrely u y hu hy), hends⟩

/-- A program step leads on to what its condition says. -/
theorem Judged.steps (h : Judged G Q E σ) (hG : ∀ op, (G op).Lawful) {t : Tid}
    {x y : Txn S Op} {holder : S.Key → Option Tid} (hx : σ.txns t = some x)
    (hskip : ∀ k next, x.prog = .tryLock k next → σ.Free t k ∨ (G x.op).skips σ.db k)
    (hsteps : σ.Steps t x y holder) : Judged G Q E (σ.resume t y holder) := by
  obtain ⟨s, hs, hends⟩ := h t x hx
  have hothers : ∀ u k, u ≠ t → (holder k = some u ↔ σ.holder k = some u) :=
    fun u k hu => hsteps.others hu k
  cases hsteps with
  | query => exact h.resume hG (hends σ.db hs) hothers
  | lock hfree =>
    refine h.resume hG ?_ hothers
    rw [acquire_eq hfree]
    exact hends σ.db hs
  | tryLock hfree =>
    refine h.resume hG ?_ hothers
    rw [acquire_eq hfree]
    exact (hends σ.db hs).1
  | skip hheld =>
    refine h.resume hG ((hends σ.db hs).2 ?_) hothers
    exact (hskip _ _ rfl).resolve_left hheld
  | write hfree hr =>
    refine h.resume hG ?_ hothers
    rw [acquire_eq hfree]
    exact (hends σ.db hs).1 _ hr
  | fail hfree he =>
    refine h.resume hG ?_ hothers
    rw [acquire_eq hfree]
    exact (hends σ.db hs).2 _ he

/-- Every decision leads on to what the conditions say, if the others keep to
what is relied on when they commit. -/
theorem Judged.exec (h : Judged G Q E σ) (hG : ∀ op, (G op).Lawful) {a : Action Op}
    (hstart : ∀ t op, a = .start t op →
      Ends (G op) (program op) (fun _ => Q op) (E op) (fun _ => False) [] σ.db)
    (hidle : ∀ t, σ.txns t = none → ∀ k, σ.holder k ≠ some t)
    (hskip : ∀ t x k next, a = .step t → σ.txns t = some x → x.prog = .tryLock k next →
      σ.Free t k ∨ (G x.op).skips σ.db k)
    (hcommit : ∀ t u y, a = .commit t → u ≠ t → σ.txns u = some y →
      (G y.op).rely (fun k => σ.holder k = some u) σ.db σ'.db)
    (hexec : σ.exec program a = some σ') : Judged G Q E σ' := by
  cases a with
  | start t op =>
    obtain ⟨hnone, rfl⟩ := Sys.start_cases hexec
    refine h.resume hG ?_ fun _ _ _ => Iff.rfl
    have hempty : (fun k => σ.holder k = some t) = fun _ => False :=
      funext fun k => eq_false (hidle t hnone k)
    rw [hempty]
    exact hstart t op rfl
  | step t =>
    obtain ⟨x, y, holder, hx, rfl, hsteps⟩ := Sys.step_cases hexec
    exact h.steps hG hx (fun k next => hskip t x k next rfl hx) hsteps
  | commit t =>
    obtain ⟨x, v, -, -, rfl⟩ := Sys.commit_cases hexec
    exact h.finish hG fun u y hu hy => hcommit t u y rfl hu hy
  | rollback t =>
    obtain ⟨x, -, rfl⟩ := Sys.rollback_cases hexec
    exact h.finish hG fun u y _ _ => (hG y.op).refl _ _

/-! ## Results of runs -/

theorem supported_iff :
    Supported G Q σ ↔ Judged G Q (fun _ _ _ _ _ => True) σ := by
  refine forall_congr' fun t => forall_congr' fun x => imp_congr_right fun _ => ?_
  exact exists_congr fun s => and_congr_right fun _ => among_iff

theorem init_supported (db : S.State) : Supported G Q (Sys.init db : Sys S Op) :=
  supported_iff.mpr (init_judged db)

theorem Supported.ended (h : Supported G Q σ)
    (hstable : ∀ op H W s s', Q op H W s → (G op).rely H s s' → Q op H W s') {t : Tid}
    {x : Txn S Op} {u : Unit} (hx : σ.txns t = some x) (hret : x.prog = .ret u) :
    Q x.op (fun k => σ.holder k = some t) x.writes σ.db :=
  (supported_iff.mp h).ended hstable hx hret

theorem Supported.exec (h : Supported G Q σ) (hG : ∀ op, (G op).Lawful)
    (hstart : ∀ op s, Among (G op) (program op) (fun _ => Q op) (fun _ => False) [] s)
    (hidle : ∀ t, σ.txns t = none → ∀ k, σ.holder k ≠ some t) {a : Action Op}
    (hskip : ∀ t x k next, a = .step t → σ.txns t = some x → x.prog = .tryLock k next →
      σ.Free t k ∨ (G x.op).skips σ.db k)
    (hcommit : ∀ t u y, a = .commit t → u ≠ t → σ.txns u = some y →
      (G y.op).rely (fun k => σ.holder k = some u) σ.db σ'.db)
    (hexec : σ.exec program a = some σ') : Supported G Q σ' :=
  supported_iff.mpr ((supported_iff.mp h).exec hG
    (fun _ op _ => among_iff.mp (hstart op σ.db)) hidle hskip hcommit hexec)

end Runs

end Munavvar.Interference
