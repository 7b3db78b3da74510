import Munavvar.Deliveries
import Munavvar.Enterprise
import Munavvar.PaymentDesk
import Munavvar.SettlementOnce

/-!
# Turnover and the accounts

An order is charged to its client from the revenue account when it is settled,
and nothing else of the program moves money from a revenue account or to one; a
courier takes money for the orders that are delivered for cash only. So the
revenue accounts stand at the turnover, a client owes the settled orders less
what was paid, and a courier holds the cash of the delivered orders less what
was handed over. What is counted is told from the accounts at the two ends of a
transaction.
-/

namespace Munavvar.Turnover

open Munavvar.KeyedTable
open Munavvar.Transaction
open Munavvar.Transaction.Prog
open Munavvar.Invariance
open Munavvar.MixedRuns
open Munavvar.Database
open Munavvar.Statements
open Munavvar.StockLedger
open Munavvar.DoubleEntry
open Munavvar.FinancialLedger
open Munavvar.ClientEffects
open Munavvar.OrderChanges
open Munavvar.OrderEffects
open Munavvar.StockEffects
open Munavvar.ContractEffects
open Munavvar.SettlementOnce (Posting posting SettledBy Payment)
open Munavvar.PaymentDecision
open Munavvar.PaymentDesk
open Munavvar.RegistryKeeping
open Munavvar.CompanyBooks
open Munavvar.Enterprise
open Munavvar.Deliveries (userAccountByType_mem)

/-! ## What is counted -/

/-- An account of one type. -/
def ofType (type : AccountType) (a : Option Account) : Bool := a.any fun x => x.type = type

/-- An account of one type and one user. -/
def ofUser (type : AccountType) (u : Uuid) (a : Option Account) : Bool :=
  a.any fun x => x.type = type && x.userId = u

/-- A posting is counted. -/
def counted (f : Option Account → Option Account → Bool) (d : Directory) (p : Posting) : Bool :=
  f (d.account? p.fromId) (d.account? p.toId)

/-- The amount of a posting that is counted. -/
def countedAmount (f : Option Account → Option Account → Bool) (d : Directory) (p : Posting) : ℤ :=
  if counted f d p then p.amount else 0

/-- What an order adds to the turnover with some orders. -/
def soldAmount (which : Order → Bool) (o : Order) : ℤ :=
  if isSettled o && which o then o.totalAmount else 0

/-- The totals of some of the delivered and picked up orders. -/
def turnover (which : Order → Bool) (s : Db) : ℤ := s.orders.total fun _ o => soldAmount which o

/-- A posting by hand leaves the revenue alone and is not for cash that a courier took. -/
def apart (a b : Option Account) : Bool :=
  !ofType .revenue a && !ofType .revenue b && !(ofType .client a && ofType .courier b)

/-- The postings that are counted are those of the settlements of some orders. -/
structure Counts (f : Option Account → Option Account → Bool) (which : Order → Bool) : Prop where
  /-- Which orders are meant stays when they are settled. -/
  stable : ∀ o o' : Order, o'.clientId = o.clientId → o'.courierId = o.courierId →
    o'.paymentMethod = o.paymentMethod → o'.saleType = o.saleType → which o' = which o
  /-- The settlement of an order is counted once, if the order is one of them. -/
  settlement : ∀ d o l, (d.accounts.map Account.id).Nodup → SettledBy d o l →
    (∀ p ∈ l, counted f d p = true → p.status = .completed) ∧
      (l.map (countedAmount f d)).sum = if which o then o.totalAmount else 0
  /-- What a client pays to the company is not counted. -/
  payment : ∀ client target : Account, client.type = .client →
    target.type ∈ [AccountType.cash, .card, .bank] → f (some client) (some target) = false
  /-- What is posted by hand is not counted. -/
  manual : ∀ a b, apart a b = true → f a b = false

/-- The counted postings make up the turnover. -/
structure Charged (f : Option Account → Option Account → Bool) (which : Order → Bool) (s : Db) :
    Prop where
  /-- Accounts have different identifiers. -/
  unique : (s.directory.accounts.map Account.id).Nodup
  /-- Whatever is counted is completed. -/
  completed : ∀ id x, s.transactions.find? id = some x →
    counted f s.directory (posting x) = true → x.status = .completed
  /-- It adds up to the turnover. -/
  total : (s.transactions.total fun _ x => countedAmount f s.directory (posting x)) =
    turnover which s

/-! ## Settlements -/

section Settlements

variable {f : Option Account → Option Account → Bool} {d : Directory} {o : Order}
  {l : List Posting}

/-- The account of a user for some purpose is found under its identifier. -/
theorem account?_of_type (hunique : (d.accounts.map Account.id).Nodup) {u : Uuid}
    {type : AccountType} {a : Account} (h : d.userAccountByType u type = some a) :
    d.account? a.id = some a ∧ a.userId = u ∧ a.type = type := by
  obtain ⟨hmem, hown⟩ := userAccountByType_mem h
  refine ⟨?_, hown⟩
  cases hfind : d.account? a.id with
  | none => exact absurd (List.find?_eq_none.mp hfind a hmem) (by simp)
  | some b =>
    have hb : b ∈ d.accounts := List.mem_of_find?_eq_some hfind
    have hid := List.find?_some hfind
    rw [decide_eq_true_eq] at hid
    rw [List.inj_on_of_nodup_map hunique hb hmem hid]

/-- Whether a posting between the accounts of two users is counted. -/
theorem counted_of_type (hunique : (d.accounts.map Account.id).Nodup) {u v : Uuid}
    {t t' : AccountType} {a b : Account} (ha : d.userAccountByType u t = some a)
    (hb : d.userAccountByType v t' = some b) (amount : ℤ) (status : TransactionStatus) :
    counted f d ⟨a.id, b.id, amount, status⟩ = f (some a) (some b) := by
  rw [counted, (account?_of_type hunique ha).1, (account?_of_type hunique hb).1]

/-- A settlement is counted if the debt is counted in the cases that `debt` tells and
the payment in those that `paid` tells; a payment by card is not. -/
theorem settlement_counted (hunique : (d.accounts.map Account.id).Nodup) (debt paid : Bool)
    (hdebt : ∀ revenue client : Account, revenue.type = .revenue → client.type = .client →
      client.userId = o.clientId → f (some revenue) (some client) = debt)
    (hcourier : ∀ client courier : Account, client.type = .client → courier.type = .courier →
      o.paymentMethod = .cash → o.saleType = .delivery → o.courierId = some courier.userId →
      f (some client) (some courier) = paid)
    (hother : (o.paymentMethod = .cash ∧ o.saleType = .delivery) ∨ paid = false)
    (hpayment : ∀ client target : Account, client.type = .client →
      target.type ∈ [AccountType.cash, .card, .bank] → f (some client) (some target) = false)
    (hl : SettledBy d o l) :
    (∀ p ∈ l, counted f d p = true → p.status = .completed) ∧
      (l.map (countedAmount f d)).sum =
        (if debt then o.totalAmount else 0) + if paid then o.totalAmount else 0 := by
  obtain ⟨client, revenue, payment, hclient, hrevenue, hpaid, rfl⟩ := hl
  obtain ⟨-, -, hrevenueType⟩ := account?_of_type hunique hrevenue
  obtain ⟨-, hown, hclientType⟩ := account?_of_type hunique hclient
  have hcount : countedAmount f d ⟨revenue.id, client.id, o.totalAmount, .completed⟩ =
      if debt then o.totalAmount else 0 := by
    rw [countedAmount, counted_of_type hunique hrevenue hclient,
      hdebt revenue client hrevenueType hclientType hown]
  -- the payment goes to a courier, to the company, or is left to an invoice
  have hrest : (∀ p ∈ payment, counted f d p = true → p.status = .completed) ∧
      (payment.map (countedAmount f d)).sum = if paid then o.totalAmount else 0 := by
    have hcompany : ∀ (type : AccountType) (target : Account) (status : TransactionStatus),
        type ∈ [AccountType.cash, .card, .bank] →
        d.userAccountByType systemUserId type = some target →
        counted f d ⟨client.id, target.id, o.totalAmount, status⟩ = false := by
      intro type target status htype htarget
      obtain ⟨-, -, htargetType⟩ := account?_of_type hunique htarget
      rw [counted_of_type hunique hclient htarget]
      exact hpayment client target hclientType (htargetType ▸ htype)
    cases hpaid with
    | courier hmethod hsale hid haccount =>
      obtain ⟨-, hcourierId, hcourierType⟩ := account?_of_type hunique haccount
      have hf := hcourier client _ hclientType hcourierType hmethod hsale (hcourierId ▸ hid)
      constructor
      · intro p hp _
        exact congrArg Posting.status (List.mem_singleton.mp hp)
      · rw [List.map_singleton, List.sum_singleton, countedAmount,
          counted_of_type hunique hclient haccount, hf]
    | cashDesk hmethod hsale haccount =>
      have hnot := hcompany _ _ .completed (by decide) haccount
      have hpaid : paid = false := hother.resolve_left fun h => by
        rw [hsale] at h
        cases h.2
      constructor
      · intro p hp hcounted
        rw [List.mem_singleton.mp hp, hnot] at hcounted
        cases hcounted
      · rw [List.map_singleton, List.sum_singleton, countedAmount, hnot, hpaid]
    | card hmethod haccount =>
      have hnot := hcompany _ _ .pending (by decide) haccount
      have hpaid : paid = false := hother.resolve_left fun h => by
        rw [hmethod] at h
        cases h.1
      constructor
      · intro p hp hcounted
        rw [List.mem_singleton.mp hp, hnot] at hcounted
        cases hcounted
      · rw [List.map_singleton, List.sum_singleton, countedAmount, hnot, hpaid]
    | contract hmethod =>
      have hpaid : paid = false := hother.resolve_left fun h => by
        rw [hmethod] at h
        cases h.1
      rw [hpaid]
      exact ⟨fun p hp => absurd hp List.not_mem_nil, rfl⟩
  constructor
  · intro p hp hcounted
    rcases List.mem_cons.mp hp with rfl | hp
    · rfl
    · exact hrest.1 p hp hcounted
  · rw [List.map_cons, List.sum_cons, hcount, hrest.2]

end Settlements

/-! ## Steps of the services -/

section Steps

variable {f : Option Account → Option Account → Bool} {which : Order → Bool} {R : Regime schema}
  {s s' : Db}

/-- A total over the ledger grows by what is appended. -/
theorem total_of_appended {t t' : Table Uuid FinancialTransaction}
    {rows : List FinancialTransaction} (h : Appended t t' rows) (g : FinancialTransaction → ℤ) :
    (t'.total fun _ x => g x) = (t.total fun _ x => g x) + (rows.map g).sum := by
  have hsum : ∀ u : Table Uuid FinancialTransaction,
      ((u.select fun _ _ => true).map g).sum = u.total fun _ x => g x := by
    intro u
    exact Table.sum_select fun _ _ _ h => by cases h
  have hall := h fun _ => true
  rw [← hsum, ← hsum, hall, List.map_append, List.sum_append, List.filter_true]

theorem counted_congr {d d' : Directory} (haccounts : d'.accounts = d.accounts) (p : Posting) :
    counted f d' p = counted f d p := by
  simp only [counted, Directory.account?, haccounts]

/-- Transactions are appended with the turnover that they are counted for. -/
theorem Charged.appended (h : Charged f which s) {rows : List FinancialTransaction}
    (happended : Appended s.transactions s'.transactions rows)
    (haccounts : s'.directory.accounts = s.directory.accounts)
    (hrows : ∀ p ∈ rows.map posting, counted f s.directory p = true → p.status = .completed)
    (hturnover : turnover which s' =
      turnover which s + ((rows.map posting).map (countedAmount f s.directory)).sum) :
    Charged f which s' where
  unique := by
    rw [haccounts]
    exact h.unique
  completed id x hx hcounted := by
    rw [counted_congr haccounts] at hcounted
    have hmem : x ∈ s'.transactions.select fun _ _ => true :=
      (Table.mem_select_iff _ _ _).mpr ⟨id, hx, rfl⟩
    rw [happended fun _ => true, List.mem_append, List.filter_true] at hmem
    rcases hmem with hmem | hmem
    · obtain ⟨j, hj, -⟩ := (Table.mem_select_iff _ _ _).mp hmem
      exact h.completed j x hj hcounted
    · exact hrows _ (List.mem_map_of_mem hmem) hcounted
  total := by
    have hgrown := total_of_appended happended fun x => countedAmount f s.directory (posting x)
    simp only [countedAmount, counted_congr haccounts] at hgrown ⊢
    rw [hgrown, hturnover, ← h.total, List.map_map]
    rfl

/-- Where neither the ledger nor the turnover changes, nothing has to be counted. -/
theorem Charged.same (h : Charged f which s) (htransactions : s'.transactions = s.transactions)
    (haccounts : s'.directory.accounts = s.directory.accounts)
    (hturnover : turnover which s' = turnover which s) : Charged f which s' := by
  have happended : Appended s.transactions s'.transactions [] := htransactions ▸ appended_nil _
  refine h.appended happended haccounts (fun p hp => absurd hp List.not_mem_nil) ?_
  exact hturnover.trans (add_zero _).symm

/-- A step by which an order does not become settled leaves what it was sold for. -/
theorem soldAmount_step (hf : Counts f which) {r : Operations.Request} {id : Uuid} {old : Option Order} {new : Order}
    (hstep : OrderStep R r s id old new)
    (hsettled : ¬ (isSettled new = true ∧ ¬ old.any isSettled = true)) :
    soldAmount which new = old.elim 0 (soldAmount which) := by
  cases old with
  | none =>
    have hnew : isSettled new = false := by
      by_contra h
      exact hsettled ⟨by simpa using h, by simp⟩
    rw [soldAmount, hnew]
    rfl
  | some o =>
    rw [Option.elim_some, soldAmount, soldAmount]
    by_cases hold : isSettled o = true
    · obtain ⟨hstatus, hclient, hcourier, hmethod, hsale, htotal, -⟩ :=
        SettlementOnce.step_of_final hstep (SettlementOnce.isFinal_of_isSettled hold)
      have hnew : isSettled new = isSettled o := by rw [isSettled, hstatus, isSettled]
      rw [hnew, hf.stable o new hclient hcourier hmethod hsale, htotal]
    · have hnew : ¬ isSettled new = true := by
        intro h
        exact hsettled ⟨h, hold⟩
      rw [Bool.not_eq_true] at hold hnew
      rw [hold, hnew]
      rfl

/-- Every change of a request keeps the account of the turnover. -/
theorem Charged.change (hf : Counts f which) {r : Operations.Request} (h : Charged f which s)
    (hchange : Change R r s s') : Charged f which s' := by
  have haccounts := congrArg Directory.accounts hchange.directory_eq
  have hkept : s'.orders = s.orders → s'.transactions = s.transactions → Charged f which s' := by
    intro horders hledger
    refine h.same hledger haccounts ?_
    rw [turnover, horders, turnover]
  cases hchange.kind with
  | order id new rows hstep horders hquota hrows hledger hinvoices =>
    have hturnover : turnover which s' = turnover which s -
        (s.orders.find? id).elim 0 (soldAmount which) + soldAmount which new :=
      horders.total fun _ o => soldAmount which o
    by_cases hsettled : isSettled new = true ∧ ¬ (s.orders.find? id).any isSettled = true
    · rw [Postings, if_pos hsettled] at hrows
      obtain ⟨hsettlement, -⟩ := SettlementOnce.settledBy_of_settlement hrows fun hsale =>
        SettlementOnce.step_courier hstep hsettled.2 hsettled.1 hsale
      obtain ⟨hcompleted, hsum⟩ := hf.settlement _ _ _ h.unique hsettlement
      have hold : (s.orders.find? id).elim 0 (soldAmount which) = 0 := by
        cases hfind : s.orders.find? id with
        | none => rfl
        | some o =>
          rw [hfind, Option.any_some, Bool.not_eq_true] at hsettled
          rw [Option.elim_some, soldAmount, hsettled.2]
          rfl
      refine h.appended hledger haccounts hcompleted ?_
      rw [hturnover, hold, sub_zero, hsum, soldAmount, hsettled.1, Bool.true_and]
    · rw [Postings, if_neg hsettled] at hrows
      subst hrows
      refine h.appended hledger haccounts (fun p hp => absurd hp List.not_mem_nil) ?_
      rw [hturnover, soldAmount_step hf hstep hsettled, sub_add_cancel]
      exact (add_zero _).symm
  | cancelled xs hnodup hstep horders hquota hledger hinvoices =>
    refine h.same hledger haccounts ?_
    have hkeys : (xs.map fun x => (x.1, x.2.2)).map Prod.fst = xs.map Prod.fst := by
      rw [List.map_map]
      rfl
    have hfind : ∀ j, s'.orders.find? j =
        (s.orders.putAll (xs.map fun x => (x.1, x.2.2))).find? j := by
      intro j
      rw [horders j, Table.find?_putAll _ (hkeys ▸ hnodup)]
    have hzero : ((xs.map fun x => (x.1, x.2.2)).map fun x =>
        soldAmount which x.2 - (s.orders.find? x.1).elim 0 (soldAmount which)).sum = 0 := by
      apply List.sum_eq_zero
      intro m hm
      rw [List.map_map] at hm
      obtain ⟨x, hx, rfl⟩ := List.mem_map.mp hm
      obtain ⟨hold, hstatus, -, hx⟩ := hstep x hx
      have hnew : isSettled x.2.2 = false := by
        rw [isSettled, hstatus]
        decide
      have hsame := soldAmount_step hf hx fun hboth => by
        rw [hnew] at hboth
        cases hboth.1
      dsimp only [Function.comp]
      rw [hold, hsame, sub_self]
    rw [turnover, Table.total_of_find?_eq hfind, Table.total_putAll _ (hkeys ▸ hnodup), hzero, add_zero]
    rfl
  | priceSet _ _ _ _ _ _ horders hledger => exact hkept horders hledger
  | priceRemoved _ _ _ _ _ _ _ horders hledger => exact hkept horders hledger
  | billed _ _ _ _ _ _ _ _ _ _ _ _ horders _ hledger => exact hkept horders hledger
  | invoiceSet _ _ _ _ _ _ horders _ hledger => exact hkept horders hledger
  | other horders _ hledger => exact hkept horders hledger

/-- Every request and every stock operation keeps the account of the turnover. -/
theorem charged_service (hf : Counts f which) (hs : OrdersOk s ∧ Charged f which s)
    (r : Company.ServiceRequest) :
    wp Regime.concurrent (Company.program r) (fun _ s' => OrdersOk s' ∧ Charged f which s')
      (fun _ => True) s := by
  have ht : Tame Regime.concurrent fun _ => True := Tame.concurrentAssuming _
  have hlax : Regime.Lax (S := schema) Regime.concurrent := Regime.concurrentAssuming_lax _
  cases r with
  | operation r =>
    have hchanges := program_changes (r := r) ht hs.1 fun s₁ _ => releasable_of_lax hlax s₁
    refine wp_mono _ hchanges (fun _ s' h => ⟨h.ordersOk hs.1, ?_⟩) fun _ he => he
    exact h.induction hs.2 fun _ _ h₁ hchange => h₁.change hf hchange
  | stock env op =>
    refine wp_stock ht (stockProgram_quiet env op) fun _ b st sx => ⟨hs.1, ?_⟩
    exact hs.2.same rfl rfl rfl

/-- A posting that is not counted is entered. -/
theorem charged_addTransaction {env : Env} {row : FinancialTransaction}
    (hs : OrdersOk s ∧ Charged f which s) (hrow : counted f s.directory (posting row) = false) :
    wp Regime.concurrent (addTransaction env row) (fun _ s' => OrdersOk s' ∧ Charged f which s')
      (fun _ => True) s := by
  rw [addTransaction, wp_bind]
  refine wp_insertTransactions (Tame.concurrentAssuming _) _ fun t b happended => ?_
  rw [checkVerifier, wp_bind, wp_ask]
  intro v hv
  rw [wp_raiseIf]
  refine ⟨fun _ => trivial, fun _ => ⟨hs.1, ?_⟩⟩
  refine hs.2.appended happended rfl ?_ ?_
  · intro p hp hcounted
    rw [List.mem_singleton.mp hp, hrow] at hcounted
    cases hcounted
  · have hzero : countedAmount f s.directory (posting row) = 0 := by
      rw [countedAmount, hrow]
      rfl
    change turnover which s = turnover which s + ([countedAmount f s.directory (posting row)]).sum
    rw [hzero, List.sum_singleton, add_zero]

/-- Statements on the balances of accounts. -/
def OnBalances : (k : Key) → Stmt k → Prop
  | .account _, _ => True
  | _, _ => False

theorem updateAccountBalances_onBalances (old : Option FinancialTransaction)
    (new : FinancialTransaction) :
    Within (S := schema) OnBalances (fun _ => True) (updateAccountBalances old new) := by
  refine within_bind ((within_raiseIf _ _).mpr fun _ => trivial) fun _ => ?_
  refine within_bind ((within_raiseIf _ _).mpr fun _ => trivial) fun _ => ?_
  refine (within_whenever _ _).mpr fun _ => ?_
  refine within_bind (within_locked _) fun _ => within_bind (within_locked _) fun _ => ?_
  exact within_bind ((within_execute _ _).mpr trivial) fun _ => (within_execute _ _).mpr trivial

/-- A decision keeps the ends and the amount of a payment that waits, and what
waits is not counted. -/
theorem charged_decide (hs : OrdersOk s ∧ Charged f which s) (id : Uuid) (decision : Decision) :
    wp Regime.concurrent (decision.program id) (fun _ s' => OrdersOk s' ∧ Charged f which s')
      (fun _ => True) s := by
  have hlax : Regime.Lax (S := schema) Regime.concurrent := Regime.concurrentAssuming_lax _
  rw [program_eq, decideTransaction, wp_bind, wp_locked, wp_bind, wp_orRaise]
  refine ⟨fun _ => trivial, fun x hx => ?_⟩
  rw [wp_bind, wp_raiseIf]
  refine ⟨fun _ => trivial, fun hpending => ?_⟩
  rw [not_not] at hpending
  have hold : s.transactions.find? id = some x := hx
  rw [updateTransaction, wp_bind, wp_locked, hx]
  dsimp only
  rw [wp_bind]
  refine wp_execute_of (hlax _ _ _) (fun _ r hr => ?_) fun _ _ => trivial
  rw [hx] at hr
  obtain ⟨rfl, -⟩ := checked_ok hr
  have hsame : posting (x.set (decision.data x)) =
      { posting x with status := (x.set (decision.data x)).status } := by
    cases decision <;> rfl
  have hnot : counted f s.directory (posting x) = false := by
    by_contra hcounted
    rw [Bool.not_eq_false] at hcounted
    have hcompleted := hs.2.completed id x hold hcounted
    rw [hpending] at hcompleted
    cases hcompleted
  have hnew : counted f s.directory (posting (x.set (decision.data x))) = false := by
    rw [hsame]
    exact hnot
  refine keeps_within hlax ?_ (updateAccountBalances_onBalances _ _) _ ⟨hs.1, ?_⟩
  · intro s k st r hst hs _
    cases k with
    | account j => exact ⟨hs.1, hs.2.same rfl rfl rfl⟩
    | _ => exact hst.elim
  · have hwritten := s.transactions.written_put id (some (x.set (decision.data x)))
    constructor
    · exact hs.2.unique
    · intro j y hy hcounted
      change (s.transactions.put id (some (x.set (decision.data x)))).find? j = some y at hy
      by_cases hj : j = id
      · subst hj
        cases hwritten.find?_self.symm.trans hy
        exact absurd (hnew.symm.trans hcounted) Bool.false_ne_true
      · exact hs.2.completed j y (hwritten.find?_ne hj ▸ hy) hcounted
    · have hmoved := hwritten.total fun _ y => countedAmount f s.directory (posting y)
      refine hmoved.trans ?_
      rw [hold, Option.elim_some, Option.elim_some, countedAmount, hnot, countedAmount, hnew]
      exact (add_zero _).trans ((sub_zero _).trans hs.2.total)

/-- Postings by hand keep apart from what orders are settled with. -/
def postedApart : Work → Directory → Bool
  | .payment _ (.createTransaction dto _), d => apart (d.account? dto.fromId) (d.account? dto.toId)
  | _, _ => true

/-- A payment goes to the company's cash, card or bank account. -/
theorem paymentTarget_type {d : Directory} {paymentMethod : String} {target : Account}
    (h : (paymentTarget d paymentMethod).1 = some target) :
    ∃ type ∈ [AccountType.cash, .card, .bank],
      d.userAccountByType systemUserId type = some target := by
  unfold paymentTarget at h
  split at h
  · exact ⟨.cash, by decide, h⟩
  · split at h
    · exact ⟨.card, by decide, h⟩
    · exact ⟨.bank, by decide, h⟩

/-- The payment desk and the accountants keep the account of the turnover. -/
theorem charged_payment (hf : Counts f which) (hs : OrdersOk s ∧ Charged f which s) (env : Env)
    (op : PaymentOperation) (hop : postedApart (.payment env op) s.directory = true) :
    wp Regime.concurrent (op.program env) (fun _ s' => OrdersOk s' ∧ Charged f which s')
      (fun _ => True) s := by
  have hsound : Regime.Sound (S := schema) Regime.concurrent := Regime.concurrentAssuming_sound _
  cases op with
  | acceptPayment dto acceptedById =>
    rw [PaymentOperation.program, acceptPayment, wp_bind, wp_ask]
    intro v hv
    have hd : v.directory = s.directory := hsound _ _ hv
    rw [hd, wp_bind, wp_orRaise]
    refine ⟨fun _ => trivial, fun client hclient => ?_⟩
    dsimp only
    rw [wp_bind, wp_orRaise]
    refine ⟨fun _ => trivial, fun target htarget => ?_⟩
    obtain ⟨type, htype, htarget⟩ := paymentTarget_type htarget
    refine charged_addTransaction hs ?_
    obtain ⟨-, -, hclientType⟩ := account?_of_type hs.2.unique hclient
    obtain ⟨-, -, htargetType⟩ := account?_of_type hs.2.unique htarget
    have hnot := hf.payment client target hclientType (htargetType ▸ htype)
    exact (counted_of_type hs.2.unique hclient htarget _ _).trans hnot
  | createTransaction dto createdById =>
    rw [PaymentOperation.program, createTransaction, wp_bind, wp_raiseIf]
    refine ⟨fun _ => trivial, fun _ => ?_⟩
    rw [wp_bind, wp_ask]
    intro v _
    rw [wp_bind, wp_orRaise]
    refine ⟨fun _ => trivial, fun _ _ => ?_⟩
    rw [wp_bind, wp_orRaise]
    refine ⟨fun _ => trivial, fun _ _ => ?_⟩
    exact charged_addTransaction hs (hf.manual _ _ hop)
  | decide id decision => exact charged_decide hs id decision

theorem charged_work (hf : Counts f which) (hs : OrdersOk s ∧ Charged f which s) (op : Work)
    (hop : postedApart op s.directory = true) :
    wp Regime.concurrent op.program (fun _ s' => OrdersOk s' ∧ Charged f which s') (fun _ => True)
      s := by
  cases op with
  | service r => exact charged_service hf hs r
  | payment env op => exact charged_payment hf hs env op hop
  | hardDelete productId =>
    refine keeps_within (Regime.concurrentAssuming_lax _) (fun s k st r hst hs _ => ?_)
      (hardDelete_onCatalog productId) s hs
    cases k with
    | product id => exact ⟨hs.1, hs.2.same rfl rfl rfl⟩
    | _ => exact hst.elim

end Steps

/-! ## A run -/

/-- Two cans of water. -/
def twoCans : OrderQueries.Item := ⟨8, 2, Operations.two_pieces⟩

theorem cans_ne_nil : [twoCans] ≠ [] := by simp

theorem no_reason_length : ∀ r ∈ (none : Option String), 3 ≤ r.length ∧ r.length ≤ 255 := by simp

theorem finding_source : TransferType.inventoryFinding ∉ StockService.virtualSourceTypes →
    (none : Option Uuid).isSome = true := by decide

theorem finding_target : TransferType.inventoryFinding ∉ StockService.virtualDestTypes →
    (some 30000 : Option Uuid).isSome = true := fun _ => rfl

theorem finding_not_loss : TransferType.inventoryFinding = .lossWriteOff →
    (none : Option String).isSome = true := by decide

/-- Two cans are found in the warehouse. -/
def findingOfCans : StockService.CreateTransferRequest :=
  ⟨.inventoryFinding, none, some 30000, [twoCans], none, cans_ne_nil, no_reason_length,
    finding_source, finding_target, finding_not_loss⟩

theorem main_length : "main".length ≤ 255 := by decide

/-- The program starts, a client and a warehouse are entered, two cans are found
there and sold to the client, who pays twice what they cost. -/
def firstSale : List (Event Work Command) :=
  [.command (.start (requestEnv 0) ⟨some "998900000001", some "secret"⟩),
    .command (.user (requestEnv 1) (.createClient office)),
    .command (.warehouse (.createWarehouse (requestEnv 2) ⟨0, "main", main_length⟩))] ++
  served 0 (.service (.operation
    ⟨requestEnv 3, .updateProduct 8 ⟨.water, "water", 25, none, true⟩⟩)) 1 ++
  served 1 (.service (.stock (requestEnv 4)
    (.createTransfer 0 findingOfCans (some [StockService.logisticsAdjustment])))) 15 ++
  served 2 (.service (.operation
    ⟨requestEnv 5, .createWarehouseSale ⟨30000, [twoCans], false⟩ (some 20000) 0⟩)) 38 ++
  served 3 (.payment (requestEnv 6) (.acceptPayment cashPayment 0)) 9

/-! ## Runs -/

/-- The ledger is settled and the counted postings make up the turnover. -/
def Turning (f : Option Account → Option Account → Bool) (which : Order → Bool) (s : Db) : Prop :=
  Settled s ∧ OrdersOk s ∧ Charged f which s

section Runs

variable {f : Option Account → Option Account → Bool} {which : Order → Bool}

/-- A new account is at no end of a transaction. -/
theorem charged_openAccount {s : Db} {a : Account} (hfresh : s.directory.account? a.id = none)
    (hs : Settled s) (h : Charged f which s) : Charged f which (openAccount a s) := by
  have hfound : ∀ id, (s.directory.account? id).isSome = true →
      (openAccount a s).directory.account? id = s.directory.account? id := by
    intro id hid
    obtain ⟨b, hb⟩ := Option.isSome_iff_exists.mp hid
    rw [openAccount, Directory.account?, List.find?_append, ← Directory.account?, hb,
      Option.some_or]
  have hends : ∀ id x, s.transactions.find? id = some x →
      counted f (openAccount a s).directory (posting x) = counted f s.directory (posting x) := by
    intro id x hx
    have hopen : ∀ j, (s.accountBalances.find? j).isSome = true →
        (s.directory.account? j).isSome = true := by
      intro j hj
      obtain ⟨b, hb⟩ := Option.isSome_iff_exists.mp hj
      exact hs.owned j b hb
    have hboth := (hs.settled.references id x hx).resolve_right List.not_mem_nil
    have hfrom := hfound x.fromId (hopen _ hboth.1)
    have hto := hfound x.toId (hopen _ hboth.2)
    rw [counted, counted, posting, hfrom, hto]
  constructor
  · change ((s.directory.accounts ++ [a]).map Account.id).Nodup
    rw [List.map_append, List.map_singleton]
    refine h.unique.append (List.nodup_singleton _) (List.disjoint_singleton.mpr fun hmem => ?_)
    obtain ⟨x, hx, hid⟩ := List.mem_map.mp hmem
    exact List.find?_eq_none.mp hfresh x hx (decide_eq_true hid)
  · intro id x hx hcounted
    rw [hends id x hx] at hcounted
    exact h.completed id x hx hcounted
  · refine Eq.trans (Table.total_congr fun id x hx => ?_) h.total
    rw [countedAmount, hends id x hx, countedAmount]

/-- Every command keeps the account of the turnover. -/
theorem turning_registering : Registering (Turning f which) := by
  have huser : ∀ s id u, Turning f which s → Turning f which { s with users := s.users.put id (some u) } :=
    fun s id u hs => ⟨settled_registering.user s id u hs.1, hs.2.1, hs.2.2.same rfl rfl rfl⟩
  have haccount : ∀ s a, s.directory.account? a.id = none → Turning f which s →
      Turning f which (openAccount a s) := fun s a hfresh hs =>
    ⟨settled_registering.account s a hfresh hs.1, hs.2.1, charged_openAccount hfresh hs.1 hs.2.2⟩
  have hinventory : ∀ s i, s.directory.inventory? i.id = none → Turning f which s →
      Turning f which (WarehouseNames.withInventories (s.directory.inventories ++ [i]) s) :=
    fun s i hfresh hs =>
      ⟨settled_registering.inventory s i hfresh hs.1, hs.2.1, hs.2.2.same rfl rfl rfl⟩
  have hbook : LedgerKeeping.Bookkeeping Regime.serial Settled :=
    settled_bookkeeping Regime.serial_sound Regime.serial_lax
  constructor
  case user => exact huser
  case account => exact haccount
  case inventory => exact hinventory
  case rewrite =>
    intro s g hg hs
    exact ⟨settled_registering.rewrite s g hg hs.1, hs.2.1, hs.2.2.same rfl rfl rfl⟩
  case delete =>
    intro s id i hi hvendor hloss hrefs hs
    exact ⟨settled_registering.delete s id i hi hvendor hloss hrefs hs.1, hs.2.1,
      hs.2.2.same rfl rfl rfl⟩
  case client =>
    refine client_of huser haccount hinventory (fun env data creatorId s hs => ?_)
      fun env data s hs => ?_
    · have hsettled := hbook.firstMovements env data creatorId s hs.1
      have hcharged : wp Regime.serial (ClientService.firstMovements env data creatorId)
          (fun _ s' => OrdersOk s' ∧ Charged f which s') (fun _ => True) s := by
        refine wp_firstMovements Tame.serial env data creatorId fun b st sx orders hordered => ?_
        cases hordered with
        | none horder horders =>
          subst horders
          exact ⟨hs.2.1, hs.2.2.same rfl rfl rfl⟩
        | some order o horder hfresh ho horders =>
          -- a first order is not settled
          constructor
          · intro id o' ho'
            by_cases hid : id = env.uuid 2 0
            · subst hid
              cases horders.find?_self.symm.trans ho'
              exact ho.orderOk
            · exact hs.2.1 id o' (horders.find?_ne hid ▸ ho')
          · refine hs.2.2.same rfl rfl ?_
            have hnew : soldAmount which o = 0 := by
              rw [soldAmount, isSettled, ho.status_eq]
              rfl
            have hmoved := horders.total fun _ o => soldAmount which o
            rw [hfresh, Option.elim_none, Option.elim_some, hnew, sub_zero, add_zero] at hmoved
            exact hmoved
      exact wp_mono _ (wp_and _ hsettled hcharged) (fun _ _ h => h) fun _ _ => trivial
    · have hsettled := hbook.startingTare env data s hs.1
      have hcharged : wp Regime.serial (ClientService.startingTare env data)
          (fun _ s' => OrdersOk s' ∧ Charged f which s') (fun _ => True) s := by
        refine wp_stock Tame.serial (startingTare_quiet env data) fun _ b st sx => ⟨hs.2.1, ?_⟩
        exact hs.2.2.same rfl rfl rfl
      exact wp_mono _ (wp_and _ hsettled hcharged) (fun _ _ h => h) fun _ _ => trivial

/-! ## The accounts -/

/-- The completed amounts between some accounts. -/
def moved (f : Option Account → Option Account → Bool) (s : Db) : ℤ :=
  s.transactions.total fun _ x =>
    if x.status = .completed ∧ counted f s.directory (posting x) = true then x.amount else 0

/-- The balances of some accounts, added up. -/
def stand (p : Option Account → Bool) (s : Db) : ℤ :=
  groupTotal s.accountBalances fun id => p (s.directory.account? id)

/-- Accounts stand at what was moved to them less what was moved from them. -/
theorem stand_eq {s : Db} (hs : Settled s) (p : Option Account → Bool) :
    stand p s = moved (fun _ b => p b) s - moved (fun a _ => p a) s := by
  have hnet : ∀ a, balance s.accountBalances a = net entryOf s.transactions a := by
    intro a
    have hlag := hs.settled.lag a
    rw [AccountConservation.outstanding, List.map_nil, List.sum_nil, add_zero] at hlag
    exact hlag
  rw [stand, groupTotal_eq_total hnet, moved, moved, ← Table.total_sub]
  refine Table.total_congr fun id x _ => ?_
  rw [groupEffect, entryOf]
  by_cases hstatus : x.status = .completed
  · rw [if_pos hstatus, Option.elim_some]
    simp only [hstatus, true_and]
    rfl
  · rw [if_neg hstatus, Option.elim_none, if_neg (fun h => hstatus h.1),
      if_neg (fun h => hstatus h.1), sub_zero]

/-- What is counted has been moved. -/
theorem Charged.moved_eq {s : Db} (h : Charged f which s) : moved f s = turnover which s := by
  rw [← h.total, moved]
  refine Table.total_congr fun id x hx => ?_
  have hcompleted := h.completed id x hx
  unfold countedAmount
  by_cases hcounted : counted f s.directory (posting x) = true
  · rw [if_pos ⟨hcompleted hcounted, hcounted⟩, if_pos hcounted]
    rfl
  · rw [if_neg (fun h => hcounted h.2), if_neg hcounted]

/-- What leaves the revenue is counted for all orders. -/
theorem counts_from : Counts (fun a _ => ofType .revenue a) fun _ => true where
  stable _ _ _ _ _ _ := rfl
  settlement d o l hunique hl := by
    have hcounted := settlement_counted (f := fun a _ => ofType .revenue a) hunique true false
      (fun revenue client hrevenue _ _ => decide_eq_true hrevenue)
      (fun client courier hclient _ _ _ _ => decide_eq_false (by rw [hclient]; decide)) (.inr rfl)
      (fun client target hclient _ => decide_eq_false (by rw [hclient]; decide)) hl
    exact ⟨hcounted.1, hcounted.2.trans (add_zero _)⟩
  payment _ _ hclient _ := decide_eq_false (by rw [hclient]; decide)
  manual a b h := by simp_all [apart]

/-- Nothing that goes to the revenue is for an order. -/
theorem counts_to : Counts (fun _ b => ofType .revenue b) fun _ => false where
  stable _ _ _ _ _ _ := rfl
  settlement d o l hunique hl := by
    have hcounted := settlement_counted (f := fun _ b => ofType .revenue b) hunique false false
      (fun revenue client _ hclient _ => decide_eq_false (by rw [hclient]; decide))
      (fun client courier _ hcourier _ _ _ => decide_eq_false (by rw [hcourier]; decide)) (.inr rfl)
      (fun client target _ htarget => decide_eq_false fun h => by simp [h] at htarget) hl
    exact ⟨hcounted.1, hcounted.2.trans (add_zero _)⟩
  payment _ _ _ htarget := decide_eq_false fun h => by simp [h] at htarget
  manual a b h := by simp_all [apart]

/-- What goes from the revenue to one client is counted for the client's orders. -/
theorem counts_client (u : Uuid) :
    Counts (fun a b => ofType .revenue a && ofUser .client u b) fun o => o.clientId = u where
  stable o o' hclient _ _ _ := by rw [hclient]
  settlement d o l hunique hl := by
    have hcounted := settlement_counted
      (f := fun a b => ofType .revenue a && ofUser .client u b) hunique (o.clientId = u) false
      (fun revenue client hrevenue hclient hown => by simp [ofType, ofUser, hrevenue, hclient, hown])
      (fun client courier hclient _ _ _ _ => by simp [ofType, hclient]) (.inr rfl)
      (fun client target hclient _ => by simp [ofType, hclient]) hl
    exact ⟨hcounted.1, hcounted.2.trans (add_zero _)⟩
  payment client target hclient _ := by simp [ofType, hclient]
  manual a b h := by simp_all [apart]

/-- What goes from a client to one courier is counted for the orders that the
courier delivers for cash. -/
theorem counts_courier (u : Uuid) :
    Counts (fun a b => ofType .client a && ofUser .courier u b) fun o =>
      o.paymentMethod = .cash && o.saleType = .delivery && o.courierId = some u where
  stable o o' _ hcourier hmethod hsale := by rw [hcourier, hmethod, hsale]
  settlement d o l hunique hl := by
    have hcounted := settlement_counted
      (f := fun a b => ofType .client a && ofUser .courier u b) hunique false
      (o.paymentMethod = .cash && o.saleType = .delivery && o.courierId = some u)
      (fun revenue client hrevenue _ _ => by simp [ofType, hrevenue])
      (fun client courier hclient hcourier hmethod hsale hid => by
        simp [ofType, ofUser, hclient, hcourier, hmethod, hsale, hid])
      (by
        by_cases h : o.paymentMethod = .cash ∧ o.saleType = .delivery
        · exact .inl h
        · rw [not_and] at h
          exact .inr (by grind))
      (fun client target _ htarget => by
        have hne : target.type ≠ .courier := fun h => by simp [h] at htarget
        simp [ofUser, hne]) hl
    exact ⟨hcounted.1, hcounted.2.trans (zero_add _)⟩
  payment client target _ htarget := by
    have hne : target.type ≠ .courier := fun h => by simp [h] at htarget
    simp [ofUser, hne]
  manual a b h := by
    have hboth : (ofType .client a && ofType .courier b) = false := by
      rw [apart, Bool.and_eq_true, Bool.not_eq_true'] at h
      exact h.2
    cases b with
    | none => exact Bool.and_false _
    | some b =>
      by_cases htype : b.type = .courier
      · have ha : ofType .client a = false := by simpa [ofType, htype] using hboth
        rw [ha, Bool.false_and]
      · simp [ofUser, htype]

variable {ilike : String → String → Bool} {scan : List Inventory → List Inventory}
  {w : World schema Work SignIns}

theorem reachable_turning (hf : Counts f which)
    (h : (enterprise ilike scan postedApart).Reachable nothing w) : Turning f which w.sys.db := by
  refine reachable_kept (fun op s hs hop => ?_) turning_registering ?_ h
  · have hbook : LedgerKeeping.Bookkeeping Regime.concurrent Settled :=
      settled_bookkeeping (Regime.concurrentAssuming_sound _) (Regime.concurrentAssuming_lax _)
    have hsettled := work_keeps hbook op s hs.1
    have hcharged := charged_work hf hs.2 op hop
    exact wp_mono _ (wp_and _ hsettled hcharged) (fun _ _ h => h) fun _ _ => trivial
  · have hcharged : Charged f which emptyDb := ⟨List.nodup_nil, fun _ _ hx => (by cases hx), rfl⟩
    exact ⟨settled_emptyDb, fun _ _ ho => (by cases ho), hcharged⟩

/-- What was moved to some accounts from the accounts of one type and from others. -/
theorem moved_split (s : Db) (type : AccountType) (p : Option Account → Bool) :
    moved (fun _ b => p b) s = moved (fun a b => ofType type a && p b) s +
      moved (fun a b => !ofType type a && p b) s := by
  rw [eq_comm, add_comm, ← eq_sub_iff_add_eq]
  simp only [moved]
  rw [← Table.total_sub]
  refine Table.total_congr fun id x _ => ?_
  unfold counted
  cases hfrom : ofType type (s.directory.account? (posting x).fromId) with
  | true => simp [hfrom]
  | false => simp [hfrom]

/-- The accounts of the revenue, of the clients and of the couriers are what the
orders and the payments say. -/
structure Turned (s : Db) : Prop where
  /-- The revenue accounts stand at the total of the settled orders. -/
  revenue_eq : stand (ofType .revenue) s = -turnover (fun _ => true) s
  /-- A client owes the total of the client's settled orders, and what was put on the
  account besides, less what was paid. -/
  debt_eq : ∀ u, stand (ofUser .client u) s = turnover (fun o => o.clientId = u) s +
    moved (fun a b => !ofType .revenue a && ofUser .client u b) s -
    moved (fun a _ => ofUser .client u a) s
  /-- A courier holds the cash of the delivered orders, and what was put on the account
  besides, less what was handed over. -/
  cash_eq : ∀ u, stand (ofUser .courier u) s =
    turnover (fun o => o.paymentMethod = .cash && o.saleType = .delivery && o.courierId = some u) s +
    moved (fun a b => !ofType .client a && ofUser .courier u b) s -
    moved (fun a _ => ofUser .courier u a) s

end Runs

end Munavvar.Turnover
