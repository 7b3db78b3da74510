import Munavvar.Interference
import Munavvar.ContractLocks
import Munavvar.ContractLog

/-!
# Stopping a contract among other transactions

A suspension or termination holds the lock of its contract, under which no
order by contract can be placed; the expiry job relies on the fact that nobody
orders under a contract whose last day is over. So the open orders of the
contract only get fewer once the bulk cancellation has read them, and if none of
them is skipped, all are cancelled.
-/

namespace Munavvar.ContractStop

open Munavvar.KeyedTable
open Munavvar.Transaction
open Munavvar.Transaction.Prog
open Munavvar.ReadCommitted
open Munavvar.Database
open Munavvar.StockLedger
open Munavvar.Quota
open Munavvar.OrderService
open Munavvar.ContractService
open Munavvar.Operations
open Munavvar.Discipline
open Munavvar.Interference
open Munavvar.ContractLocks (stops)
open Munavvar.ContractLog (NotContract Apart cancelInflightOrders_apart)

/-- What the bulk cancellation of a contract looks for. -/
def isInflight (c : Uuid) (o : Order) : Bool :=
  o.contractId = some c && (o.status = .new || o.status = .assigned) && o.isActive

/-- The last day of a contract is over. -/
def Overdue (c : Uuid) (env : Env) (s : Db) : Prop :=
  ∃ x, s.contracts.find? c = some x ∧ (x.endDate.any fun d => d < dateOf env.now) = true

/-- No order can be placed under a contract while a request is served. -/
def Guarded (c : Uuid) (r : Request) (H : Key → Prop) (s : Db) : Prop :=
  H (.contract c) ∨ r.op = .runExpireJob ∧ Overdue c r.env s

/-- The open orders of a contract were open before. -/
def Shrinks (c : Uuid) (s s' : Db) : Prop :=
  ∀ id o', s'.orders.find? id = some o' → isInflight c o' = true →
    ∃ o, s.orders.find? id = some o ∧ isInflight c o = true

/-- What others may do while a request is served under some locks. -/
structure Relies (c : Uuid) (r : Request) (H : Key → Prop) (s s' : Db) : Prop where
  /-- Locked rows stay as they are. -/
  rows : ∀ k, H k → s'.get k = s.get k
  /-- The last day stays over. -/
  overdue : Overdue c r.env s → Overdue c r.env s'
  /-- A guarded contract gets no orders. -/
  shrinks : Guarded c r H s → Shrinks c s s'

/-- The others of a request; one that stops contracts skips no open order of the contract. -/
def around (c : Uuid) (r : Request) : Surroundings schema where
  rely := Relies c r
  skips s k := stops r.op → ∀ id o, k = .order id → s.orders.find? id = some o →
    isInflight c o = false

section Assertions

variable {c : Uuid} {r : Request} {H H' : Key → Prop} {W : List (RowWrite schema)} {s s' : Db}

theorem Guarded.relies (h : Guarded c r H s) (hs : Relies c r H s s') : Guarded c r H s' :=
  h.imp_right fun ⟨hop, hover⟩ => ⟨hop, hs.overdue hover⟩

theorem around_lawful (c : Uuid) (r : Request) : (around c r).Lawful where
  refl H s := ⟨fun _ _ => rfl, fun h => h, fun _ _ o' ho' hopen => ⟨o', ho', hopen⟩⟩
  trans h h' := by
    refine ⟨fun k hk => (h'.rows k hk).trans (h.rows k hk), fun hs => h'.overdue (h.overdue hs), ?_⟩
    intro hguarded id o'' ho'' hopen
    obtain ⟨o', ho', hopen'⟩ := h'.shrinks (hguarded.relies h) id o'' ho'' hopen
    exact h.shrinks hguarded id o' ho' hopen'

/-- A transaction has written an order. -/
def Touches (W : List (RowWrite schema)) (id : Uuid) : Prop := ∃ w ∈ W, w.key = .order id

/-- A cancelled order. -/
def IsCancelled (row : Option Order) : Prop := ∃ o, row = some o ∧ o.status = .cancelled

/-- Orders that were written were cancelled. -/
def OnlyCancels (W : List (RowWrite schema)) : Prop :=
  ∀ (s : Db) id, Touches W id → IsCancelled (schema.get (view s W) (.order id))

/-- Every open order of the contract has been written. -/
def Done (c : Uuid) (W : List (RowWrite schema)) (s : Db) : Prop :=
  ∀ id o, s.orders.find? id = some o → isInflight c o = true → Touches W id

/-- The contract has not been written. -/
def Unwritten (c : Uuid) (W : List (RowWrite schema)) : Prop := ∀ w ∈ W, w.key ≠ .contract c

theorem touches_append {id : Uuid} {w : RowWrite schema} (h : Touches W id) :
    Touches (W ++ [w]) id := by
  obtain ⟨w', hw', hkey⟩ := h
  exact ⟨w', List.mem_append_left _ hw', hkey⟩

theorem touches_self (id : Uuid) (row : Option Order) :
    Touches (W ++ [⟨.order id, row⟩]) id := ⟨_, List.mem_append_right _ List.mem_cons_self, rfl⟩

theorem onlyCancels_nil : OnlyCancels [] := by
  rintro s id ⟨w, hw, -⟩
  cases hw

/-- One more write cancels its order, if it is one of an order. -/
theorem OnlyCancels.append {k : Key} {row : Option (Row k)} (h : OnlyCancels W)
    (hrow : ∀ s : Db, ∀ id, k = .order id →
      IsCancelled (schema.get (schema.put (view s W) k row) (.order id))) :
    OnlyCancels (W ++ [⟨k, row⟩]) := by
  intro s id htouched
  rw [view_concat]
  by_cases hk : k = .order id
  · exact hrow s id hk
  · have hother : Touches W id := by
      obtain ⟨w, hw, hkey⟩ := htouched
      rcases List.mem_append.mp hw with hw | hw
      · exact ⟨w, hw, hkey⟩
      · rw [List.mem_singleton.mp hw] at hkey
        exact absurd hkey hk
    rw [schema.get_put_ne _ _ _ _ (Ne.symm hk)]
    exact h s id hother

/-- An order that was not written is read as it is committed. -/
theorem view_order {id : Uuid} (h : ¬ Touches W id) :
    schema.get (view s W) (.order id) = s.orders.find? id :=
  get_view_of_not_mem s fun w hw hkey => h ⟨w, hw, hkey⟩

theorem unwritten_nil : Unwritten c [] := fun _ hw => absurd hw List.not_mem_nil

theorem unwritten_append {k : Key} {row : Option (Row k)} (h : Unwritten c W)
    (hk : k ≠ .contract c) : Unwritten c (W ++ [⟨k, row⟩]) := by
  intro w hw
  rcases List.mem_append.mp hw with hw | hw
  · exact h w hw
  · rw [List.mem_singleton.mp hw]
    exact hk

theorem Done.append {w : RowWrite schema} (h : Done c W s) : Done c (W ++ [w]) s :=
  fun id o ho hopen => touches_append (h id o ho hopen)

/-! ## What others and more locks keep -/

theorem Guarded.lock {k : Key} (h : Guarded c r H s) :
    Guarded c r (taking (S := schema) H k) s := h.imp_left .inl

theorem stable_guarded : Stable (around c r) fun H _ s => Guarded c r H s where
  rely h hs := h.relies hs
  lock h := h.lock

theorem stable_done : Stable (around c r) fun H W s => Guarded c r H s ∧ Done c W s where
  rely h hs := by
    refine ⟨h.1.relies hs, fun id o ho hopen => ?_⟩
    obtain ⟨o₀, ho₀, hopen₀⟩ := hs.shrinks h.1 id o ho hopen
    exact h.2 id o₀ ho₀ hopen₀
  lock h := ⟨h.1.lock, h.2⟩

/-- Conditions on the writes alone are stable. -/
theorem stable_writes {P : List (RowWrite schema) → Prop} :
    Stable (around c r) fun _ W _ => P W where
  rely h _ := h
  lock h := h

/-- An order is locked and stored. -/
def Got (H : Key → Prop) (W : List (RowWrite schema)) (s : Db) (id : Uuid) : Prop :=
  H (.order id) ∧ ∃ o : Order, schema.get (view s W) (.order id) = some o

theorem Got.relies {id : Uuid} (h : Got H W s id) (hs : Relies c r H s s') : Got H W s' id := by
  obtain ⟨hlocked, o, ho⟩ := h
  refine ⟨hlocked, o, ?_⟩
  have hsame : schema.get (view s' W) (.order id) = schema.get (view s W) (.order id) :=
    get_view_congr (hs.rows _ hlocked) W
  exact hsame.trans ho

theorem Got.lock {id : Uuid} {k : Key} (h : Got H W s id) :
    Got (taking (S := schema) H k) W s id := ⟨.inl h.1, h.2⟩

/-- The open orders of the contract are written or listed. -/
def Covered (c : Uuid) (W : List (RowWrite schema)) (ids : List Uuid) (s : Db) : Prop :=
  ∀ id o, s.orders.find? id = some o → isInflight c o = true → Touches W id ∨ id ∈ ids

theorem Covered.relies {ids : List Uuid} (h : Covered c W ids s) (hguarded : Guarded c r H s)
    (hs : Relies c r H s s') : Covered c W ids s' := by
  intro id o ho hopen
  obtain ⟨o₀, ho₀, hopen₀⟩ := hs.shrinks hguarded id o ho hopen
  exact h id o₀ ho₀ hopen₀

/-- A listed order that is not open can be struck off. -/
theorem Covered.strike {id : Uuid} {ids ids' : List Uuid} (h : Covered c W (ids ++ id :: ids') s)
    (hclosed : ∀ o, s.orders.find? id = some o → isInflight c o = true → Touches W id) :
    Covered c W (ids ++ ids') s := by
  intro j o ho hopen
  rcases h j o ho hopen with htouched | hmem
  · exact .inl htouched
  · rcases List.mem_append.mp hmem with hmem | hmem
    · exact .inr (List.mem_append_left _ hmem)
    · rcases List.mem_cons.mp hmem with rfl | hmem
      · exact .inl (hclosed o ho hopen)
      · exact .inr (List.mem_append_right _ hmem)

end Assertions

/-! ## The bulk cancellation -/

section Cancellation

variable {c c' : Uuid} {r : Request} {H : Key → Prop} {W : List (RowWrite schema)} {s : Db}

/-- The candidates of a contract are locked one by one; those that are not kept are not open. -/
theorem among_lockCandidates (hstops : stops r.op) (ids : List Uuid) : ∀ (n : ℕ) (kept : List Uuid) (H : Key → Prop)
    (s : Db), ids.length ≤ n → (∀ id ∈ kept, Got H W s id) →
    (c' = c → Guarded c r H s ∧ Covered c W (kept ++ ids) s) →
    Among (around c r) (lockCandidates (isInflight c') n ids) (fun rows H' W' s' => W' = W ∧
      (∀ id ∈ kept ++ rows.map Prod.fst, Got H' W s' id) ∧
      (c' = c → Guarded c r H' s' ∧ Covered c W (kept ++ rows.map Prod.fst) s')) H W s := by
  induction ids with
  | nil =>
    intro n kept H s _ hkept hcovered
    cases n <;> exact ⟨rfl, by simpa using hkept, by simpa using hcovered⟩
  | cons id ids ih =>
    intro n kept H s hlength hkept hcovered
    obtain ⟨n, rfl⟩ : ∃ m, n = m + 1 := ⟨n - 1, by simp at hlength; omega⟩
    have hlength' : ids.length ≤ n := by simpa using hlength
    refine (among_bind _ _).mpr fun s₁ hs₁ => ⟨?_, fun hskip => ?_⟩
    · have hkept₁ : ∀ j ∈ kept, Got (taking (S := schema) H (.order id)) W s₁ j :=
        fun j hj => ((hkept j hj).relies hs₁).lock
      have hcovered₁ : c' = c → Guarded c r (taking (S := schema) H (.order id)) s₁ ∧
          Covered c W (kept ++ id :: ids) s₁ := fun hc =>
        ⟨((hcovered hc).1.relies hs₁).lock, (hcovered hc).2.relies (hcovered hc).1 hs₁⟩
      have hread : ∀ o, ¬ Touches W id → s₁.orders.find? id = some o →
          schema.get (view s₁ W) (.order id) = some o := fun o htouched ho =>
        (view_order htouched).trans ho
      cases hmatch : (schema.get (view s₁ W) (.order id)).filter (isInflight c') with
      | none =>
        have hjoin : (some (schema.get (view s₁ W) (.order id))).join.filter (isInflight c') = none :=
          hmatch
        rw [among_ret, hjoin]
        refine ih (n + 1) kept _ s₁ (by omega) hkept₁ fun hc => ⟨(hcovered₁ hc).1, ?_⟩
        refine (hcovered₁ hc).2.strike fun o ho hopen => ?_
        by_contra htouched
        rw [hread o htouched ho, Option.filter_some, hc, hopen] at hmatch
        cases hmatch
      | some order =>
        have hjoin : (some (schema.get (view s₁ W) (.order id))).join.filter (isInflight c') =
            some order := hmatch
        rw [among_ret, hjoin]
        have hrow := (Option.filter_eq_some_iff.mp hmatch).1
        refine (among_bind _ _).mpr ((ih n (kept ++ [id]) _ s₁ hlength' ?_ ?_).mono ?_)
        · intro j hj
          rcases List.mem_append.mp hj with hj | hj
          · exact hkept₁ j hj
          · rw [List.mem_singleton.mp hj]
            exact ⟨.inr rfl, order, hrow⟩
        · simpa only [List.append_assoc, List.singleton_append] using hcovered₁
        · intro rows H' W' s' h
          simp only [List.append_assoc, List.singleton_append] at h
          exact h
    · -- a row that was skipped is not open
      refine ih (n + 1) kept H s₁ (by omega) (fun j hj => (hkept j hj).relies hs₁) fun hc => ?_
      refine ⟨(hcovered hc).1.relies hs₁, ?_⟩
      refine ((hcovered hc).2.relies (hcovered hc).1 hs₁).strike fun o ho hopen => ?_
      rw [hskip hstops id o rfl ho] at hopen
      cases hopen

/-- Statements after the first loop: they go to orders that are cancelled already. -/
def Sweeps (ids : List Uuid) : (k : Key) → Stmt k → Prop
  | .order id, .update data _ => id ∈ ids ∧ data.status = none
  | .order id, .logTransition _ => id ∈ ids
  | .order _, _ => False
  | _, _ => True

/-- A cancelled order stays cancelled. -/
theorem sweeps_exec {ids : List Uuid} {id : Uuid} {st : OrderStmt} {old row : Option Order}
    (hst : Sweeps ids (.order id) st) (hold : IsCancelled old) (h : st.exec old = .ok row) :
    id ∈ ids ∧ IsCancelled row := by
  obtain ⟨o, rfl, ho⟩ := hold
  cases st with
  | update data now =>
    obtain ⟨rfl, -⟩ := checked_ok h
    refine ⟨hst.1, _, rfl, ?_⟩
    rw [Order.set, hst.2]
    exact ho
  | logTransition entry =>
    obtain ⟨rfl, -⟩ := checked_ok h
    exact ⟨hst, _, rfl, ho⟩
  | _ => exact hst.elim

/-- One more write under a condition on an order. -/
theorem OnlyCancels.order {id : Uuid} {row : Option Order} (h : OnlyCancels W)
    (hrow : IsCancelled row) : OnlyCancels (W ++ [⟨.order id, row⟩]) := by
  refine h.append fun s j hj => ?_
  cases hj
  rw [schema.get_put_self]
  exact hrow

/-- One more write of another row. -/
theorem OnlyCancels.other {k : Key} {row : Option (Row k)} (h : OnlyCancels W)
    (hk : ∀ id, k ≠ .order id) : OnlyCancels (W ++ [⟨k, row⟩]) :=
  h.append fun _ id heq => absurd heq (hk id)

/-- The bulk cancellation cancels what it writes, and all open orders if no
order can be placed meanwhile. -/
theorem among_cancelInflightOrders (hstops : stops r.op) (env : Env) (reason : String)
    (hW : OnlyCancels W) (hc : c' = c → Guarded c r H s) :
    Among (around c r) (cancelInflightOrders env c' reason) (fun _ H' W' s' => OnlyCancels W' ∧
      (c' = c → Guarded c r H' s' ∧ Done c W' s')) H W s := by
  refine (among_bind _ _).mpr ((among_bind _ _).mpr fun s₁ hs₁ => ?_)
  refine (among_lockCandidates hstops _ _ [] H s₁ (le_refl _) (by simp) fun hcc => ?_).mono ?_
  · have hguarded := hc hcc
    refine ⟨hguarded.relies hs₁, fun id o ho hopen => ?_⟩
    by_cases htouched : Touches W id
    · exact .inl htouched
    · have hread : (view s₁ W).orders.find? id = some o := (view_order htouched).trans ho
      refine .inr (List.mem_map.mpr ⟨(id, o), List.mem_filter.mpr ⟨?_, ?_⟩, rfl⟩)
      · exact (Table.mem_rows_iff _ _ _).mpr hread
      · rw [hcc]
        exact hopen
  rintro rows H₂ W₂ s₂ ⟨rfl, hgot, hcovered⟩
  rw [List.nil_append] at hgot hcovered
  have hrows : ∀ x ∈ rows, x.1 ∈ rows.map Prod.fst := fun x hx => List.mem_map.mpr ⟨x, hx, rfl⟩
  refine (among_bind _ _).mpr (Among.mono (among_forEach (fun todo H W s => OnlyCancels W ∧
      (∀ x ∈ rows, Got H W s x.1) ∧ (∀ x ∈ rows, x ∈ todo ∨ Touches W x.1) ∧
      (c' = c → Guarded c r H s ∧ Covered c W (rows.map Prod.fst) s)) ?_ ?_) ?_)
  · rintro x hx todo H W s ⟨hW, hgot, htodo, hcovered⟩ s' hs' row hrow
    obtain ⟨hlocked, o, ho⟩ := (hgot x hx).relies hs'
    have hcancelled : IsCancelled row := by
      rw [ho] at hrow
      obtain ⟨rfl, -⟩ := checked_ok hrow
      exact ⟨_, rfl, rfl⟩
    refine ⟨hW.order hcancelled, fun y hy => ?_, fun y hy => ?_, fun hcc => ?_⟩
    · obtain ⟨hlocked', o', ho'⟩ := (hgot y hy).relies hs'
      refine ⟨.inl hlocked', ?_⟩
      rw [view_concat]
      by_cases hkey : y.1 = x.1
      · rw [hkey, schema.get_put_self]
        obtain ⟨o'', ho'', -⟩ := hcancelled
        exact ⟨o'', ho''⟩
      · refine ⟨o', (schema.get_put_ne _ _ _ _ fun h => hkey (Key.order.inj h)).trans ho'⟩
    · rcases htodo y hy with hmem | htouched
      · rcases List.mem_cons.mp hmem with rfl | hmem
        · exact .inr (touches_self _ _)
        · exact .inl hmem
      · exact .inr (touches_append htouched)
    · obtain ⟨hguarded, hcovered⟩ := hcovered hcc
      refine ⟨(hguarded.relies hs').lock, fun id o ho hopen => ?_⟩
      exact (hcovered.relies hguarded hs' id o ho hopen).imp_left touches_append
  · exact ⟨hW, fun x hx => hgot _ (hrows x hx), fun x hx => .inl hx, hcovered⟩
  rintro - H₃ W₃ s₃ ⟨hW₃, -, htouched, hcovered₃⟩
  -- from here on only cancelled orders are written
  have hstable : Stable (around c r) fun H W s => OnlyCancels W ∧
      (∀ x ∈ rows, Touches W x.1) ∧ (c' = c → Guarded c r H s ∧ Done c W s) :=
    stable_writes.and (stable_writes.and (stable_done.imp _))
  refine Among.mono (among_within (P := Sweeps (rows.map Prod.fst)) (X := fun _ => True) hstable
    ?_ ?_ ⟨hW₃, fun x hx => ?_, fun hcc => ?_⟩) fun _ H W s h => ⟨h.1, h.2.2⟩
  · rintro H W s k st row hst ⟨hW, htouched, hdone⟩ hrow
    refine ⟨?_, fun x hx => touches_append (htouched x hx), fun hcc =>
      ⟨(hdone hcc).1.lock, (hdone hcc).2.append⟩⟩
    cases k with
    | order id =>
      have hid : id ∈ rows.map Prod.fst := by
        cases st with
        | update data now => exact hst.1
        | logTransition entry => exact hst
        | _ => exact hst.elim
      obtain ⟨x, hx, rfl⟩ := List.mem_map.mp hid
      exact hW.order (sweeps_exec hst (hW s x.1 (htouched x hx)) hrow).2
    | _ => exact hW.other fun _ => nofun
  · have hreserved : ∀ x ∈ rows.filter fun x => x.2.quantitiesReserved,
        x.1 ∈ rows.map Prod.fst := fun x hx => hrows x (List.mem_filter.mp hx).1
    refine within_bind (within_collect fun x => within_bind (within_locked _) fun _ =>
      within_ret _) fun items => ?_
    refine within_bind (within_forEach fun x => ?_) fun _ => within_bind ?_ fun _ => ?_
    · refine within_bind ((within_raiseIf _ _).mpr fun _ => trivial) fun _ => ?_
      refine within_bind (within_locked _) fun _ => ?_
      exact within_bind ((within_execute _ _).mpr trivial) fun _ =>
        (within_raiseIf _ _).mpr fun _ => trivial
    · exact within_forEach_mem fun x hx => (within_execute _ _).mpr ⟨hreserved x hx, rfl⟩
    · refine within_forEach_mem fun x hx => within_bind ?_ fun _ => ?_
      · exact (within_execute _ _).mpr ⟨hrows x hx, rfl⟩
      · exact (within_execute _ _).mpr (hrows x hx)
  · exact (htouched x hx).resolve_left List.not_mem_nil
  · obtain ⟨hguarded, hcovered⟩ := hcovered₃ hcc
    refine ⟨hguarded, fun id o ho hopen => ?_⟩
    rcases hcovered id o ho hopen with hid | hid
    · exact hid
    · obtain ⟨x, hx, rfl⟩ := List.mem_map.mp hid
      exact (htouched x hx).resolve_left List.not_mem_nil

end Cancellation

/-! ## The operations that stop contracts -/

section Operations

variable {c : Uuid} {r : Request} {H : Key → Prop} {W : List (RowWrite schema)} {s : Db}

/-- Statements on the row of one contract. -/
def OnContract (id : Uuid) (k : Key) (_ : Stmt k) : Prop := k = .contract id

theorem updateContract_within (id : Uuid) (data : ContractUpdate) :
    Within (S := schema) (OnContract id) (fun _ => True) (updateContract id data) :=
  within_bind (within_locked _) fun _ => within_bind ((within_execute _ _).mpr rfl) fun _ =>
    (within_raiseIf _ _).mpr fun _ => trivial

/-- A write of a contract is none of an order. -/
theorem OnlyCancels.contract {id : Uuid} {k : Key} {st : Stmt k} {row : Option (Row k)}
    (h : OnlyCancels W) (hk : OnContract id k st) : OnlyCancels (W ++ [⟨k, row⟩]) :=
  h.other fun j heq => by
    rw [hk] at heq
    cases heq

/-- Writes of a contract keep a guarded contract without open orders so. -/
theorem among_onContract_done {id : Uuid} {p : Uow Unit}
    (hp : Within (S := schema) (OnContract id) (fun _ => True) p) (hW : OnlyCancels W)
    (hdone : Guarded c r H s ∧ Done c W s) :
    Among (around c r) p (fun _ H W s => OnlyCancels W ∧ Guarded c r H s ∧ Done c W s) H W s := by
  refine among_within (stable_writes.and stable_done) ?_ hp ⟨hW, hdone⟩
  rintro H W s k st row hst ⟨hW, hguarded, hdone⟩ -
  exact ⟨hW.contract hst, hguarded.lock, hdone.append⟩

/-- The contract has not been written and is guarded while it is still to come,
or it has no open orders left. -/
def Progress (c : Uuid) (r : Request) (todo : List Uuid) : Assertion schema := fun H W s =>
  (Unwritten c W ∧ (c ∈ todo → Guarded c r H s)) ∨ (Guarded c r H s ∧ Done c W s)

theorem stable_progress (todo : List Uuid) : Stable (around c r) (Progress c r todo) :=
  (stable_writes.and (stable_guarded.imp _)).or stable_done

/-- Writes of other rows keep the progress. -/
theorem Progress.write {todo : List Uuid} {k : Key} {row : Option (Row k)}
    (h : Progress c r todo H W s) (hk : k ≠ .contract c) :
    Progress c r todo (taking (S := schema) H k) (W ++ [⟨k, row⟩]) s := by
  rcases h with ⟨hunwritten, hguarded⟩ | ⟨hguarded, hdone⟩
  · exact .inl ⟨unwritten_append hunwritten hk, fun hc => (hguarded hc).lock⟩
  · exact .inr ⟨hguarded.lock, hdone.append⟩

/-- What is done for other contracts keeps the progress. -/
theorem among_onContract_other {id : Uuid} (hid : id ≠ c) {todo : List Uuid} {p : Uow Unit}
    (hp : Within (S := schema) (OnContract id) (fun _ => True) p)
    (h : OnlyCancels W ∧ Progress c r todo H W s) :
    Among (around c r) p (fun _ H W s => OnlyCancels W ∧ Progress c r todo H W s) H W s := by
  refine among_within (stable_writes.and (stable_progress todo)) ?_ hp h
  rintro H W s k st row hst ⟨hW, hprogress⟩ -
  refine ⟨hW.contract hst, hprogress.write fun heq => hid ?_⟩
  rw [hst] at heq
  exact Key.contract.inj heq

/-- Orders of other contracts are cancelled. -/
theorem among_cancelInflightOrders_other (hstops : stops r.op) {id : Uuid} (hid : id ≠ c)
    {todo : List Uuid} (env : Env) (reason : String) (h : OnlyCancels W ∧ Progress c r todo H W s) :
    Among (around c r) (cancelInflightOrders env id reason)
      (fun _ H W s => OnlyCancels W ∧ Progress c r todo H W s) H W s := by
  have hcancels := among_cancelInflightOrders (c := c) (H := H) (s := s) hstops env reason h.1
    fun heq => absurd heq hid
  have hprogress : Among (around c r) (cancelInflightOrders env id reason)
      (fun _ => Progress c r todo) H W s := by
    refine among_within (stable_progress todo) ?_ (cancelInflightOrders_apart env id reason) h.2
    rintro H W s k st row hst hprogress -
    refine hprogress.write fun heq => ?_
    subst heq
    exact hst
  exact (hcancels.and hprogress).mono fun _ H W s h => ⟨h.1.1, h.2⟩

/-- A suspension or termination leaves no open orders of its contract. -/
theorem among_stop (hstops : stops r.op) {env : Env} {id : Uuid} {isStopped : Contract → Prop}
    [DecidablePred isStopped] {e : Contract → Err} {data : ContractUpdate} {reason : String}
    {log : Contract → ContractStatusLog} :
    Among (around c r) (getContractLocked id >>= fun contract => do
      raiseIf (isStopped contract) (e contract)
      updateContract id data
      cancelInflightOrders env id reason
      issue (.contract id) (.log (log contract)))
      (fun _ H W s => OnlyCancels W ∧ Progress c r [] H W s) (fun _ => False) [] s := by
  refine (among_bind _ _).mpr ((among_bind _ _).mpr fun s₁ _ => (among_orRaise _ _).mpr ?_)
  refine fun contract _ => (among_bind _ _).mpr ((among_raiseIf _ _).mpr fun _ => ?_)
  have hlog : Within (S := schema) (OnContract id) (fun _ => True)
      (issue (.contract id) (.log (log contract))) := (within_execute _ _).mpr rfl
  refine (among_bind _ _).mpr ?_
  by_cases hid : id = c
  · subst hid
    have hguarded : Guarded id r (taking (S := schema) (fun _ => False) (.contract id)) s₁ :=
      .inl (.inr rfl)
    refine (among_within (stable_writes.and stable_guarded) ?_ (updateContract_within id data)
      ⟨onlyCancels_nil, hguarded⟩).mono ?_
    · rintro H W s k st row hst ⟨hW, hguarded⟩ -
      exact ⟨hW.contract hst, hguarded.lock⟩
    rintro - H₂ W₂ s₂ ⟨hW₂, hguarded₂⟩
    refine (among_bind _ _).mpr ((among_cancelInflightOrders hstops env reason hW₂ fun _ =>
      hguarded₂).mono ?_)
    rintro - H₃ W₃ s₃ ⟨hW₃, hdone₃⟩
    refine (among_onContract_done hlog hW₃ (hdone₃ rfl)).mono ?_
    exact fun _ H W s h => ⟨h.1, .inr h.2⟩
  · refine (among_onContract_other hid (updateContract_within id data)
      ⟨onlyCancels_nil, .inl ⟨unwritten_nil, fun hc => absurd hc List.not_mem_nil⟩⟩).mono fun _ H₂ W₂ s₂ h₂ => ?_
    refine (among_bind _ _).mpr ((among_cancelInflightOrders_other hstops hid env reason h₂).mono ?_)
    exact fun _ H₃ W₃ s₃ h₃ => among_onContract_other hid hlog h₃

/-- The expiry job leaves no open orders of the contracts that it expires. -/
theorem among_runExpireJob (hop : r.op = .runExpireJob) :
    Among (around c r) (runExpireJob r.env)
      (fun _ H W s => OnlyCancels W ∧ Progress c r [] H W s) (fun _ => False) [] s := by
  have hstops : stops r.op := by
    rw [hop]
    exact trivial
  refine (among_bind _ _).mpr fun s₁ _ => ?_
  refine among_forEach (fun todo H W s => OnlyCancels W ∧ Progress c r todo H W s) ?_
    ⟨onlyCancels_nil, .inl ⟨unwritten_nil, fun hc => .inr ⟨hop, ?_⟩⟩⟩
  · rintro id - todo H W s ⟨hW, hprogress⟩
    have hwrites : Within (S := schema) (OnContract id) (fun _ => True) (do
        updateContract id { status := .expired }
        issue (.contract id)
          (.log ⟨some .active, .expired, none, some "Истёк срок действия договора"⟩)) :=
      within_bind (updateContract_within id _) fun _ => (within_execute _ _).mpr rfl
    refine (among_bind _ _).mpr ?_
    by_cases hid : id = c
    · subst hid
      have hguarded : Guarded id r H s := by
        rcases hprogress with ⟨-, hguarded⟩ | ⟨hguarded, -⟩
        · exact hguarded List.mem_cons_self
        · exact hguarded
      refine (among_cancelInflightOrders hstops r.env _ hW fun _ => hguarded).mono ?_
      rintro - H₂ W₂ s₂ ⟨hW₂, hdone₂⟩
      refine (among_onContract_done hwrites hW₂ (hdone₂ rfl)).mono ?_
      exact fun _ H W s h => ⟨h.1, .inr h.2⟩
    · have hlater : Progress c r todo H W s := by
        refine hprogress.imp_left fun h => ⟨h.1, fun hc => h.2 (List.mem_cons_of_mem _ hc)⟩
      refine (among_cancelInflightOrders_other hstops hid r.env _ ⟨hW, hlater⟩).mono
        fun _ H₂ W₂ s₂ h₂ => ?_
      exact among_onContract_other hid hwrites h₂
  · obtain ⟨⟨id, x⟩, hx, rfl⟩ := List.mem_map.mp hc
    obtain ⟨hmem, hpass⟩ := List.mem_filter.mp hx
    rw [Bool.and_eq_true] at hpass
    exact ⟨x, (Table.mem_rows_iff _ _ _).mp hmem, hpass.2⟩

/-- What the operations that stop contracts have achieved when they commit. -/
def Goal (c : Uuid) (r : Request) : Assertion schema := fun H W s => stops r.op →
  OnlyCancels W ∧ ((∃ w ∈ W, w.key = .contract c) → H (.contract c) ∧ Done c W s)

/-- The achievement lasts until the commit. -/
theorem Goal.relies {s' : Db} (h : Goal c r H W s) (hs : Relies c r H s s') : Goal c r H W s' := by
  intro hstops
  obtain ⟨hW, hdone⟩ := h hstops
  refine ⟨hW, fun hwritten => ?_⟩
  obtain ⟨hlocked, hdone⟩ := hdone hwritten
  exact ⟨hlocked, (stable_done.rely ⟨.inl hlocked, hdone⟩ hs).2⟩

/-- Writes are made under locks. -/
theorem among_held (p : Uow Unit) :
    Among (around c r) p (fun _ H W _ => ∀ w ∈ W, H w.key) (fun _ => False) [] s := by
  refine among_within (I := fun H W _ => ∀ w ∈ W, H w.key)
    ⟨fun h _ => h, fun h w hw => .inl (h w hw)⟩ ?_ (within_true p) fun w hw => ?_
  · intro H W s k st row _ h _ w hw
    rcases List.mem_append.mp hw with hw | hw
    · exact .inl (h w hw)
    · rw [List.mem_singleton.mp hw]
      exact .inr rfl
  · cases hw

/-- Every request that stops contracts meets its goal. -/
theorem among_program (c : Uuid) (r : Request) (s : Db) :
    Among (around c r) (program r) (fun _ => Goal c r) (fun _ => False) [] s := by
  have hgoal : ∀ {p : Uow Unit}, Among (around c r) p
      (fun _ H W s => OnlyCancels W ∧ Progress c r [] H W s) (fun _ => False) [] s →
      Among (around c r) p (fun _ => Goal c r) (fun _ => False) [] s := by
    intro p hp
    refine (hp.and (among_held p)).mono ?_
    rintro - H W s ⟨⟨hW, hprogress⟩, hheld⟩ -
    refine ⟨hW, ?_⟩
    rintro ⟨w, hw, hkey⟩
    refine ⟨hkey ▸ hheld w hw, ?_⟩
    rcases hprogress with ⟨hunwritten, -⟩ | ⟨-, hdone⟩
    · exact absurd hkey (hunwritten w hw)
    · exact hdone
  obtain ⟨env, op⟩ := r
  cases op with
  | suspendContract id reason u =>
    have hstops : stops (.suspendContract id reason u) := trivial
    exact hgoal (among_stop hstops)
  | terminateContract id reason u =>
    have hstops : stops (.terminateContract id reason u) := trivial
    exact hgoal (among_stop hstops)
  | runExpireJob => exact hgoal (among_runExpireJob rfl)
  | _ => exact (among_trivial _).mono fun _ _ _ _ _ hstops => hstops.elim

end Operations

end Munavvar.ContractStop
