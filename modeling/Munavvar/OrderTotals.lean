import Munavvar.SettlementOnce

/-!
# The total of an order

The total in the header is kept beside the lines. Every operation moves it by
what it does to the lines, except that adding to a line that exists charges the
price of the moment while the line keeps its own. In runs whose additions find
the two prices equal, the header is the sum of the lines, and so is what is
settled.
-/

namespace Munavvar.OrderTotals

open Munavvar.KeyedTable
open Munavvar.Transaction
open Munavvar.Transaction.Prog
open Munavvar.Database
open Munavvar.Statements
open Munavvar.OrderQueries
open Munavvar.OrderService
open Munavvar.Operations
open Munavvar.OrderChanges
open Munavvar.OrderEffects
open Munavvar.ContractEffects
open Munavvar.SettlementOnce

/-! ## Sums of lines -/

theorem lineTotal_append (items items' : List OrderItem) :
    lineTotal (items ++ items') = lineTotal items + lineTotal items' := by
  rw [lineTotal, List.map_append, List.sum_append, lineTotal, lineTotal]

theorem lineTotal_perm {items items' : List OrderItem} (h : items.Perm items') :
    lineTotal items = lineTotal items' := (h.map _).sum_eq

theorem lineTotal_nonneg {items : List OrderItem} (h : ∀ i ∈ items, LineOk i) :
    0 ≤ lineTotal items := by
  apply List.sum_nonneg
  intro x hx
  obtain ⟨i, hi, rfl⟩ := List.mem_map.mp hx
  obtain ⟨hquantity, hprice⟩ := h i hi
  exact Int.mul_nonneg hprice hquantity.le

/-- An addition at the price of its line adds what it charges. -/
theorem lineTotal_lineAdded {items items' : List OrderItem} {p : Uuid} {quantity price : ℤ}
    (h : LineAdded items p quantity price items')
    (hprice : ∀ i ∈ items, i.productId = p → i.unitPrice = price) :
    lineTotal items' = lineTotal items + price * quantity := by
  cases h with
  | appended hnew _ =>
    rw [lineTotal_append]
    simp [lineTotal]
  | @merged index i hline hproduct =>
    have hi := hprice i (List.mem_of_getElem? hline) hproduct
    obtain ⟨hindex, heq⟩ := List.getElem?_eq_some_iff.mp hline
    have hsplit : items = items.take index ++ [i] ++ items.drop (index + 1) := by
      rw [List.append_assoc, List.singleton_append, ← heq, List.cons_getElem_drop_succ,
        List.take_append_drop]
    have hset : items.set index { i with quantity := i.quantity + quantity } =
        items.take index ++ [{ i with quantity := i.quantity + quantity }] ++
          items.drop (index + 1) := by
      rw [List.append_assoc, List.singleton_append]
      exact List.set_eq_take_append_cons_drop.trans (if_pos hindex)
    have hone : ∀ j : OrderItem, lineTotal [j] = j.unitPrice * j.quantity := fun j => add_zero _
    rw [hset, lineTotal_append, lineTotal_append, hone]
    conv_rhs => rw [hsplit, lineTotal_append, lineTotal_append, hone]
    dsimp only
    rw [hi, mul_add]
    omega

/-- Removing the only line of a product removes its price. -/
theorem lineTotal_lineRemoved {items : List OrderItem} {p : Uuid} {i : OrderItem}
    (hline : items.filter (fun i => i.productId = p) = [i]) :
    lineTotal items =
      i.unitPrice * i.quantity + lineTotal (items.filter fun i => i.productId ≠ p) := by
  have hperm := List.filter_append_perm (fun i : OrderItem => decide (i.productId = p)) items
  have hnot : (items.filter fun i => !decide (i.productId = p)) =
      items.filter fun i => i.productId ≠ p :=
    List.filter_congr fun j _ => decide_not.symm
  have hone : lineTotal [i] = i.unitPrice * i.quantity := add_zero _
  rw [hline, hnot] at hperm
  rw [← lineTotal_perm hperm, lineTotal_append, hone]

/-! ## The invariant -/

/-- An addition to a line that exists is charged at the price of that line. -/
def addsAtLinePrice (r : Request) (s : Db) : Bool :=
  match r.op with
  | .addProductToOrder id productId _ _ => (s.orders.find? id).all fun o => o.items.all fun i =>
    i.productId ≠ productId || (effectivePrice s o productId).all fun price => i.unitPrice = price
  | _ => true

/-- Header and lines agree. -/
structure TotalsKept (s : Db) : Prop where
  /-- The orders are in order. -/
  ordersOk : OrdersOk s
  /-- The ledger agrees with the orders. -/
  settled : Settled s
  /-- The header is the sum of the lines. -/
  total_eq : ∀ id o, s.orders.find? id = some o → o.totalAmount = lineTotal o.items

section Kept

variable {R : Regime schema} {r : Request} {s s' : Db}

/-- A step of an order keeps header and lines in agreement. -/
theorem step_total (hexact : R.Exact) (hcond : addsAtLinePrice r s = true) {id : Uuid}
    {old : Option Order} {new : Order} (hold : s.orders.find? id = old)
    (hok : ∀ o, old = some o → OrderOk o) (htotal : ∀ o, old = some o → o.totalAmount = lineTotal o.items)
    (h : OrderStep R r s id old new) : new.totalAmount = lineTotal new.items := by
  cases h with
  | placed _ _ _ _ htotal => exact htotal
  | sold _ _ _ htotal => exact htotal
  | @lineAdded o p quantity price items hop hstatus hquantity hitems hprice =>
    obtain ⟨u, hop⟩ := hop
    rw [addsAtLinePrice, hop] at hcond
    dsimp only at hcond
    rw [hold, Option.all_some, List.all_eq_true] at hcond
    dsimp only
    rw [htotal o rfl]
    refine (lineTotal_lineAdded hitems fun i hi hproduct => ?_).symm
    have hline := hcond i hi
    rw [hprice hexact] at hline
    simpa [hproduct] using hline
  | @lineRemoved o p i hstatus hline hlength =>
    have hrest : 0 ≤ lineTotal (o.items.filter fun i => i.productId ≠ p) :=
      lineTotal_nonneg fun j hj => (hok o rfl).items_ok j (List.mem_filter.mp hj).1
    dsimp only
    rw [htotal o rfl, lineTotal_lineRemoved hline]
    omega
  | @assigned o => exact htotal o rfl
  | @moved o => exact htotal o rfl
  | @cancelled o => exact htotal o rfl
  | @pickedUp o => exact htotal o rfl
  | @delivered o items total by_ logged hstatus hsale hcourier hitems =>
    cases hitems with
    | whole => exact htotal o rfl
    | partly => rfl

theorem TotalsKept.change (h : TotalsKept s) (hexact : R.Exact)
    (hcond : addsAtLinePrice r s = true) (hchange : Change R r s s') : TotalsKept s' := by
  refine ⟨hchange.ordersOk h.ordersOk, h.settled.change hchange, fun id o ho => ?_⟩
  rcases hchange.order_cases id with hsame | ⟨new, hnew, hstep⟩
  · exact h.total_eq id o (hsame ▸ ho)
  · cases hnew.symm.trans ho
    exact step_total hexact hcond rfl (fun o ho => h.ordersOk id o ho)
      (fun o ho => h.total_eq id o ho) hstep

/-- A request that meets the condition keeps header and lines in agreement. -/
theorem program_totalsKept (h : TotalsKept s) (hcond : addsAtLinePrice r s = true) :
    wp Regime.serial (program r) (fun _ s' => TotalsKept s') (fun _ => True) s := by
  have hexact : Regime.Exact (S := schema) Regime.serial :=
    Regime.serialAsserting_exact (S := schema) _
  have hlax : Regime.Lax (S := schema) Regime.serial := Regime.serial_lax
  by_cases hadd : ∃ id p q u, r.op = .addProductToOrder id p q u
  · -- an addition is one change, made in the state that the condition is about
    obtain ⟨id, p, q, u, hop⟩ := hadd
    have hprogram : program r = addProductToOrder r.env id p q u := by rw [program, hop]
    rw [hprogram]
    exact wp_mono _ (addProductToOrder_change Tame.serial h.ordersOk hop)
      (fun _ _ hchange => h.change hexact hcond hchange) fun _ he => he
  · have hcond : ∀ s₁, addsAtLinePrice r s₁ = true := by
      intro s₁
      unfold addsAtLinePrice
      split
      · next id p q u hop => exact absurd ⟨id, p, q, u, hop⟩ hadd
      · rfl
    have hchanges := program_changes (r := r) Tame.serial h.ordersOk
      fun s₁ _ => releasable_of_lax hlax s₁
    refine wp_mono _ hchanges (fun _ _ hchanges => ?_) fun _ he => he
    exact hchanges.induction h fun s₁ _ h₁ hchange => h₁.change hexact (hcond s₁) hchange

end Kept

theorem fresh_totalsKept (s : Db) : TotalsKept (fresh s) where
  ordersOk id o ho := absurd ho (by simp [fresh])
  settled := fresh_settled s
  total_eq id o ho := absurd ho (by simp [fresh])

/-- The header of every order is the sum of its lines, and so is every amount
that has been settled for it. -/
def TotalsAgree (s : Db) : Prop :=
  ∀ id o, s.orders.find? id = some o → o.totalAmount = lineTotal o.items ∧
    ∀ x ∈ posted id s, x.amount = lineTotal o.items

/-- The amounts of a settlement are the total of the order. -/
theorem amount_of_settledBy {d : Directory} {o : Order} {l : List Posting} (h : SettledBy d o l) :
    ∀ x ∈ l, x.amount = o.totalAmount := by
  obtain ⟨client, revenue, payment, -, -, hpayment, rfl⟩ := h
  cases hpayment <;> simp

theorem TotalsKept.agree {s : Db} (h : TotalsKept s) : TotalsAgree s := by
  intro id o ho
  refine ⟨h.total_eq id o ho, fun x hx => ?_⟩
  rw [← h.total_eq id o ho]
  by_cases hsettled : isSettled o = true
  · exact amount_of_settledBy (h.settled.settled id o ho hsettled) x hx
  · rw [h.settled.unsettled id (by rw [ho]; exact hsettled)] at hx
    exact absurd hx List.not_mem_nil

/-- In every serial run whose additions are charged at the price of their line,
headers, lines and settled amounts agree. -/
theorem totals_agree (s : Db) {rs : List Request}
    (hrs : Along program (fun r s => addsAtLinePrice r s = true) rs (fresh s)) :
    TotalsAgree (after rs (fresh s)) :=
  (serveAll_along (fresh_totalsKept s)
    (fun _ _ hcond h => serve_of_wp (program_totalsKept h hcond) h) hrs).agree

/-- Two pieces of coffee, one more at the same price and, after a change of price, a bottle. -/
def orderlyRequests : List Request :=
  [sampleRequest 0 0 (.createOrder 7 ⟨[⟨23, 2, two_pieces⟩], .cash, 5, false, none⟩),
    sampleRequest 1 1 (.addProductToOrder 10000 23 1 (some 7)),
    sampleRequest 2 2 (.updateProduct 23 ⟨.equipment, "coffee", 100, none, true⟩),
    sampleRequest 3 3 (.addProductToOrder 10000 22 1 (some 7))]

theorem totals_agree_sample :
    TotalsAgree (after orderlyRequests (fresh sampleDb)) ∧
      ((after orderlyRequests (fresh sampleDb)).orders.find? 10000).map Order.totalAmount =
        some 260 :=
  ⟨totals_agree sampleDb (by decide +kernel), by decide +kernel⟩

/-- Two pieces of coffee at 70 and, after a change of price, a third one at 100. -/
def repricedRequests : List Request :=
  [sampleRequest 0 0 (.createOrder 7 ⟨[⟨23, 2, two_pieces⟩], .cash, 5, false, none⟩),
    sampleRequest 1 1 (.updateProduct 23 ⟨.equipment, "coffee", 100, none, true⟩),
    sampleRequest 2 2 (.addProductToOrder 10000 23 1 (some 7))]

theorem totals_disagree : ¬ ∀ (s : Db) (rs : List Request), TotalsAgree (after rs (fresh s)) := by
  intro hclaim
  have heval : ((after repricedRequests (fresh sampleDb)).orders.find? 10000).map
      (fun o => (o.totalAmount, lineTotal o.items)) = some (240, 210) := by decide +kernel
  obtain ⟨o, ho, heq⟩ := Option.map_eq_some_iff.mp heval
  have htotal := (hclaim sampleDb repricedRequests 10000 o ho).1
  rw [Prod.mk.injEq] at heq
  rw [heq.1, heq.2] at htotal
  exact absurd htotal (by decide)

end Munavvar.OrderTotals
