import Munavvar.Database

/-!
# The rules of single statements

One rule says what every statement may be assumed to do inside a program that
is run in a tame regime; from it follow the rules for the statements on orders,
which name the row that is left and the constraints it has passed.
-/

namespace Munavvar.Statements

open Munavvar.KeyedTable
open Munavvar.Transaction
open Munavvar.Transaction.Prog
open Munavvar.Database

/-- The release of quota is the only statement with a safety condition of its own. -/
def IsDecrement : (k : Key) → Stmt k → Prop
  | .priceItem _ _, .decrement _ => True
  | _, _ => False

/-- Plain reads are sound, nothing but a release of quota has to be justified
and no exception but that of a failed release is excluded. -/
structure Tame (R : Regime schema) (E : Err → Prop) : Prop where
  /-- Snapshots agree on the directory. -/
  sound : R.Sound
  /-- Other statements are free. -/
  lax : ∀ k st old, ¬ IsDecrement k st → R.asserts k st old
  /-- Other exceptions are allowed. -/
  err : ∀ e, e.isQuotaLeak = false → E e

theorem Tame.serial : Tame Regime.serial fun _ => True :=
  ⟨Regime.serial_sound, fun _ _ _ _ => trivial, fun _ _ => trivial⟩

theorem Tame.concurrentAssuming (A : (k : Key) → Stmt k → Option (Row k) → Prop) :
    Tame (Regime.concurrentAssuming A) fun _ => True :=
  ⟨Regime.concurrentAssuming_sound A, fun _ _ _ _ => trivial, fun _ _ => trivial⟩

/-- What the constraints say of a line. -/
structure LineOk (i : OrderItem) : Prop where
  /-- `ck_order_item_quantity_pos`. -/
  quantity_pos : 0 < i.quantity
  /-- `ck_order_item_price_pos`. -/
  unitPrice_nonneg : 0 ≤ i.unitPrice

theorem lineOk_of_constraints {i : OrderItem} (h : ∀ c ∈ i.constraints, c.1 = true) : LineOk i := by
  have hquantity := h (decide (0 < i.quantity), .checkViolation "ck_order_item_quantity_pos")
    (by simp [OrderItem.constraints])
  have hprice := h (decide (0 ≤ i.unitPrice), .checkViolation "ck_order_item_price_pos")
    (by simp [OrderItem.constraints])
  exact ⟨of_decide_eq_true hquantity, of_decide_eq_true hprice⟩

/-! ## What statements raise -/

/-- Exceptions by which the database refuses a row. -/
def isConstraint : Err → Bool
  | .checkViolation _ | .uniqueViolation _ | .foreignKeyViolation _ => true
  | .outOfRange _ | .stringTooLong _ => true
  | _ => false

theorem checked_isConstraint {V : Type} {v : V} {cs : List (Bool × Err)} {e : Err}
    (hcs : ∀ c ∈ cs, isConstraint c.2 = true) (h : checked v cs = .error e) :
    isConstraint e = true := hcs _ (checked_error h)

theorem orderItem_constraints_isConstraint (i : OrderItem) :
    ∀ c ∈ i.constraints, isConstraint c.2 = true := by
  simp [OrderItem.constraints, isConstraint]

theorem priceItem_constraints_isConstraint (p : PriceItem) :
    ∀ c ∈ p.constraints, isConstraint c.2 = true := by
  simp [PriceItem.constraints, isConstraint]

theorem order_exec_isConstraint (st : OrderStmt) (old : Option Order) {e : Err}
    (h : st.exec old = .error e) : isConstraint e = true := by
  cases old with
  | none =>
    cases st with
    | insert order => exact checked_isConstraint (by simp [isConstraint]) h
    | addItems items => cases h; rfl
    | logTransition entry => cases h; rfl
    | _ => cases h
  | some o =>
    cases st with
    | insert order => cases h; rfl
    | addItems items =>
      refine checked_isConstraint (fun c hc => ?_) h
      obtain ⟨i, -, hc⟩ := List.mem_flatMap.mp hc
      exact orderItem_constraints_isConstraint i c hc
    | update data now => exact checked_isConstraint (by simp [isConstraint]) h
    | updateQuantity index quantity =>
      rw [OrderStmt.exec] at h
      split at h
      · exact checked_isConstraint (orderItem_constraints_isConstraint _) h
      · cases h
    | deleteItem productId => cases h
    | logTransition entry => exact checked_isConstraint (by simp [isConstraint]) h

theorem priceItem_exec_isConstraint (st : PriceItemStmt) (old : Option PriceItem) {e : Err}
    (h : st.exec old = .error e) : isConstraint e = true := by
  cases old with
  | none =>
    cases st with
    | insert id price quantity => exact checked_isConstraint (priceItem_constraints_isConstraint _) h
    | _ => cases h
  | some p =>
    cases st with
    | insert id price quantity => cases h; rfl
    | delete id => cases h
    | update id price quantity =>
      dsimp only [PriceItemStmt.exec] at h
      split at h
      · exact checked_isConstraint (priceItem_constraints_isConstraint _) h
      · cases h
    | increment id delta =>
      dsimp only [PriceItemStmt.exec] at h
      split at h
      · exact checked_isConstraint (priceItem_constraints_isConstraint _) h
      · cases h
    | decrement delta =>
      dsimp only [PriceItemStmt.exec] at h
      split at h
      · exact checked_isConstraint (priceItem_constraints_isConstraint _) h
      · cases h

theorem contract_exec_isConstraint (st : ContractStmt) (old : Option Contract) {e : Err}
    (h : st.exec old = .error e) : isConstraint e = true := by
  cases old with
  | none =>
    cases st with
    | insert contract => exact checked_isConstraint (by simp [isConstraint]) h
    | update data => cases h
    | log entry => cases h; rfl
  | some c =>
    cases st with
    | insert contract => cases h; rfl
    | update data => exact checked_isConstraint (by simp [isConstraint]) h
    | log entry => exact checked_isConstraint (by simp [isConstraint]) h

theorem ledger_exec_isConstraint (st : FinancialStmt) (old : Option FinancialTransaction) {e : Err}
    (h : st.exec old = .error e) : isConstraint e = true := by
  cases old with
  | none =>
    cases st with
    | insert row =>
      exact checked_isConstraint (by simp [FinancialTransaction.constraints, isConstraint]) h
    | _ => cases h
  | some x =>
    cases st with
    | insert row => cases h; rfl
    | update data =>
      exact checked_isConstraint (by simp [FinancialTransaction.constraints, isConstraint]) h
    | delete => cases h

theorem stock_exec_isConstraint (st : StockTransactionStmt) (old : Option StockTransaction) {e : Err}
    (h : st.exec old = .error e) : isConstraint e = true := by
  cases old with
  | none =>
    cases st with
    | insert row => exact checked_isConstraint (by simp [isConstraint]) h
    | _ => cases h
  | some x =>
    cases st with
    | insert row => cases h; rfl
    | _ => cases h

theorem transfer_exec_isConstraint (st : TransferStmt) (old : Option StockTransfer) {e : Err}
    (h : st.exec old = .error e) : isConstraint e = true := by
  cases old with
  | none =>
    cases st with
    | insert transfer => exact checked_isConstraint (by simp [isConstraint]) h
    | addItems items => cases h; rfl
  | some t =>
    cases st with
    | insert transfer => cases h; rfl
    | addItems items =>
      refine checked_isConstraint (fun c hc => ?_) h
      obtain ⟨i, -, hc⟩ := List.mem_flatMap.mp hc
      rw [List.mem_cons, List.mem_singleton] at hc
      rcases hc with rfl | rfl <;> rfl

theorem invoice_exec_isConstraint (st : InvoiceStmt) (old : Option Invoice) {e : Err}
    (h : st.exec old = .error e) : isConstraint e = true := by
  cases old with
  | none =>
    cases st with
    | insert invoice => exact checked_isConstraint (by simp [isConstraint]) h
    | update data => cases h
  | some i =>
    cases st with
    | insert invoice => cases h; rfl
    | update data => cases h

theorem balance_update_isConstraint (st : BalanceStmt) (old : Option ℤ) {e : Err}
    (h : st.update old = .error e) : isConstraint e = true := by
  obtain ⟨delta⟩ := st
  cases old with
  | none => cases h
  | some b => exact checked_isConstraint (by simp [isConstraint]) h

/-- Every statement fails with an exception of the database. -/
theorem exec_isConstraint (k : Key) (st : Stmt k) (old : Option (Row k)) {e : Err}
    (h : exec k st old = .error e) : isConstraint e = true := by
  cases k with
  | user id => exact st.elim
  | inventory id => exact st.elim
  | product id =>
    cases st with
    | set product => exact checked_isConstraint (by simp [isConstraint]) h
    | delete => cases h
  | contract id => exact contract_exec_isConstraint st old h
  | priceItem c p => exact priceItem_exec_isConstraint st old h
  | order id => exact order_exec_isConstraint st old h
  | account id => exact balance_update_isConstraint st old h
  | balance i p =>
    obtain ⟨delta⟩ := st
    exact checked_isConstraint (by simp [isConstraint]) h
  | stockTransfer id => exact transfer_exec_isConstraint st old h
  | stockTransaction id => exact stock_exec_isConstraint st old h
  | transaction id => exact ledger_exec_isConstraint st old h
  | invoice id => exact invoice_exec_isConstraint st old h

/-- No statement raises the exception of a failed release. -/
theorem exec_not_leak (k : Key) (st : Stmt k) (old : Option (Row k)) {e : Err}
    (h : exec k st old = .error e) : e.isQuotaLeak = false := by
  have h := exec_isConstraint k st old h
  cases e <;> first | rfl | exact absurd h (by simp [isConstraint])

/-! ## Rules -/

/-- A statement keeps the contract of an order, or it makes the order. -/
theorem order_exec {st : OrderStmt} {mid row : Option Order} (h : st.exec mid = .ok row) :
    (∃ o o', mid = some o ∧ row = some o' ∧ o'.contractId = o.contractId ∧
      o'.isActive = o.isActive) ∨
    mid = none ∧ (row = none ∨ ∃ o, st = .insert o ∧ row = some o) := by
  cases mid with
  | none =>
    refine .inr ⟨rfl, ?_⟩
    cases st with
    | insert o =>
      obtain ⟨rfl, -⟩ := checked_ok h
      exact .inr ⟨o, rfl, rfl⟩
    | _ => cases h <;> exact .inl rfl
  | some o =>
    refine .inl ⟨o, ?_⟩
    cases st with
    | insert _ => cases h
    | deleteItem productId =>
      cases h
      exact ⟨_, rfl, rfl, rfl, rfl⟩
    | updateQuantity index quantity =>
      dsimp only [OrderStmt.exec] at h
      split at h
      · obtain ⟨rfl, -⟩ := checked_ok h
        exact ⟨_, rfl, rfl, rfl, rfl⟩
      · cases h
        exact ⟨_, rfl, rfl, rfl, rfl⟩
    | _ =>
      obtain ⟨rfl, -⟩ := checked_ok h
      exact ⟨_, rfl, rfl, rfl, rfl⟩

section Rules

variable {R : Regime schema} {E : Err → Prop} {s : Db}

/-- A check whose exception is allowed. -/
theorem wp_check (ht : Tame R E) {c : Prop} [Decidable c] {e : Err} (he : e.isQuotaLeak = false)
    {Q : Unit → Db → Prop} (hQ : ¬ c → Q () s) : wp R (raiseIf c e) Q E s := by
  rw [wp_raiseIf]
  exact ⟨fun _ => ht.err e he, hQ⟩

/-- A value whose absence may be raised. -/
theorem wp_required (ht : Tame R E) {α : Type} {o : Option α} {e : Err}
    (he : e.isQuotaLeak = false) {Q : α → Db → Prop} (hQ : ∀ a, o = some a → Q a s) :
    wp R (orRaise o e) Q E s := by
  rw [wp_orRaise]
  exact ⟨fun _ => ht.err e he, hQ⟩

/-- Any statement but a release of quota. -/
theorem wp_issue (ht : Tame R E) {k : Key} {st : Stmt k} (hst : ¬ IsDecrement k st)
    {Q : Unit → Db → Prop}
    (hok : R.assumes k st (s.get k) → ∀ r, exec k st (s.get k) = .ok r → Q () (s.put k r)) :
    wp R (issue k st) Q E s :=
  wp_execute_of (ht.lax _ _ _ hst) hok fun _ he => ht.err _ (exec_not_leak k st _ he)

/-- A program whose statements stay within a kind that does not release quota. -/
theorem wp_within (ht : Tame R E) {α : Type} {P : (k : Key) → Stmt k → Prop} {p : Uow α}
    (hp : Within (S := schema) P (fun e => e.isQuotaLeak = false) p)
    (hP : ∀ k st, P k st → ¬ IsDecrement k st) {Q : α → Db → Prop}
    (hQ : ∀ a s', Frame (S := schema) P s s' → Q a s') : wp R p Q E s :=
  wp_frame hp (fun k st old hst => ht.lax k st old (hP k st hst)) ht.err
    (fun k st old _ _ he => ht.err _ (exec_not_leak k st old he)) hQ

/-- No statement at all. -/
def NoStmt (k : Key) (_ : Stmt k) : Prop := False

/-- A program that only reads leaves the state as it is. -/
theorem wp_reads (ht : Tame R E) {α : Type} {p : Uow α}
    (hp : Within (S := schema) NoStmt (fun e => e.isQuotaLeak = false) p) {Q : α → Db → Prop}
    (hQ : ∀ a, Q a s) : wp R p Q E s := by
  refine wp_within ht hp (fun _ _ h => h.elim) fun a s' hframe => ?_
  have hsame : s' = s := hframe.proj_eq id fun _ _ _ _ h => h.elim
  rw [hsame]
  exact hQ a

theorem wp_insertOrder (ht : Tame R E) {id : Uuid} {o : Order} {Q : Unit → Db → Prop}
    (hok : s.orders.find? id = none → Q () (s.put (.order id) (some o))) :
    wp R (issue (.order id) (.insert o)) Q E s := by
  refine wp_issue ht (k := .order id) (fun h => h) fun _ r hr => ?_
  change (OrderStmt.insert o).exec (s.orders.find? id) = .ok r at hr
  cases hold : s.orders.find? id with
  | none =>
    rw [hold] at hr
    obtain ⟨rfl, -⟩ := checked_ok hr
    exact hok hold
  | some old =>
    rw [hold] at hr
    cases hr

/-- A statement that passes on an existing order. -/
theorem wp_order (ht : Tame R E) {id : Uuid} {o : Order} (ho : s.orders.find? id = some o)
    {st : OrderStmt} {Q : Unit → Db → Prop}
    (hok : ∀ r, st.exec (some o) = .ok r → Q () (s.put (.order id) r)) :
    wp R (issue (.order id) st) Q E s := by
  refine wp_issue ht (k := .order id) (fun h => h) fun _ r hr => hok r ?_
  change st.exec (s.orders.find? id) = .ok r at hr
  rwa [ho] at hr

theorem wp_addOrderItems (ht : Tame R E) {id : Uuid} {o : Order}
    (ho : s.orders.find? id = some o) {items : List OrderItem} {Q : Unit → Db → Prop}
    (hok : (∀ i ∈ items, LineOk i) →
      Q () (s.put (.order id) (some { o with items := o.items ++ items }))) :
    wp R (issue (.order id) (.addItems items)) Q E s := by
  refine wp_order ht ho fun r hr => ?_
  obtain ⟨rfl, hcs⟩ := checked_ok hr
  refine hok fun i hi => lineOk_of_constraints fun c hc => ?_
  exact hcs c (List.mem_flatMap.mpr ⟨i, hi, hc⟩)

theorem wp_updateOrder (ht : Tame R E) {id : Uuid} {o : Order} (ho : s.orders.find? id = some o)
    {data : OrderUpdate} {now : ℤ} {Q : Unit → Db → Prop}
    (hok : Q () (s.put (.order id) (some (o.set data now)))) :
    wp R (issue (.order id) (.update data now)) Q E s := by
  refine wp_order ht ho fun r hr => ?_
  obtain ⟨rfl, -⟩ := checked_ok hr
  exact hok

theorem wp_updateQuantity (ht : Tame R E) {id : Uuid} {o : Order}
    (ho : s.orders.find? id = some o) {index : ℕ} {i : OrderItem} (hi : o.items[index]? = some i)
    {quantity : ℤ} {Q : Unit → Db → Prop}
    (hok : LineOk { i with quantity := quantity } → Q () (s.put (.order id)
      (some { o with items := o.items.set index { i with quantity := quantity } }))) :
    wp R (issue (.order id) (.updateQuantity index quantity)) Q E s := by
  refine wp_order ht ho fun r hr => ?_
  simp only [OrderStmt.exec, hi] at hr
  obtain ⟨rfl, hcs⟩ := checked_ok hr
  exact hok (lineOk_of_constraints hcs)

theorem wp_deleteItem (ht : Tame R E) {id : Uuid} {o : Order} (ho : s.orders.find? id = some o)
    {productId : Uuid} {Q : Unit → Db → Prop}
    (hok : Q () (s.put (.order id)
      (some { o with items := o.items.filter fun i => i.productId ≠ productId }))) :
    wp R (issue (.order id) (.deleteItem productId)) Q E s := by
  refine wp_order ht ho fun r hr => ?_
  cases hr
  exact hok

theorem wp_logTransition (ht : Tame R E) {id : Uuid} {o : Order}
    (ho : s.orders.find? id = some o) {entry : OrderStatusLog} {Q : Unit → Db → Prop}
    (hok : Q () (s.put (.order id)
      (some { o with statusLogs := o.statusLogs ++ [entry] }))) :
    wp R (issue (.order id) (.logTransition entry)) Q E s := by
  refine wp_order ht ho fun r hr => ?_
  obtain ⟨rfl, -⟩ := checked_ok hr
  exact hok

/-! ## Statements that succeed -/

/-- A condition is met, or every failure is allowed. -/
def Sure (E : Err → Prop) (c : Prop) : Prop := c ∨ ∀ e, E e

theorem Sure.imp {c c' : Prop} (h : Sure E c) (hc : c → c') : Sure E c' := Or.imp_left hc h

/-- What is raised where the condition is not met is allowed. -/
theorem Sure.err {c : Prop} (h : Sure E c) (hc : ¬ c) (e : Err) : E e := by
  rcases h with h | hany
  · exact absurd h hc
  · exact hany e

/-- A statement that nothing but its constraints can stop. -/
theorem wp_checked (hlax : R.Lax) {k : Key} {st : Stmt k} {v : Row k} {cs : List (Bool × Err)}
    (hexec : exec k st (s.get k) = checked v cs) (hsure : Sure E (∀ c ∈ cs, c.1 = true))
    {Q : Unit → Db → Prop} (hQ : (∀ c ∈ cs, c.1 = true) → Q () (s.put k (some v))) :
    wp R (issue k st) Q E s := by
  refine wp_execute_of (hlax _ _ _) (fun _ r hr => ?_) fun e he => ?_
  · have hr : checked v cs = .ok r := hexec.symm.trans hr
    obtain ⟨rfl, hchecks⟩ := checked_ok hr
    exact hQ hchecks
  · have he : checked v cs = .error e := hexec.symm.trans he
    refine hsure.err (fun hall => ?_) e
    rw [checked_of_forall hall] at he
    cases he

/-- An exception that is raised under a condition which is known not to hold. -/
theorem wp_sure {c : Prop} [Decidable c] {e : Err} (hsure : Sure E (¬ c)) {Q : Unit → Db → Prop}
    (hQ : ¬ c → Q () s) : wp R (raiseIf c e) Q E s := by
  rw [wp_raiseIf]
  exact ⟨fun hc => hsure.err (fun hnot => hnot hc) e, hQ⟩

/-- An exception that is raised for a missing value which is known to be there. -/
theorem wp_orRaise_sure {α : Type} {o : Option α} {e : Err} (hsure : Sure E (o.isSome = true))
    {Q : α → Db → Prop} (hQ : ∀ a, o = some a → Q a s) : wp R (orRaise o e) Q E s := by
  rw [wp_orRaise]
  constructor
  · intro hnone
    apply hsure.err
    rw [hnone]
    exact Bool.false_ne_true
  · exact hQ

end Rules

end Munavvar.Statements
