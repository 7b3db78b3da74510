import Munavvar.AccountStatements
import Munavvar.Billing
import Munavvar.StableSort

/-!
# Reconciliation of a contract

The act of a period lists the delivered orders of a contract and what its
client has paid into the bank. Both queries take the same midnights as bounds,
so the acts of adjacent periods share no row and leave none out, and an act
bills what an invoice of the same period would.
-/

namespace Munavvar.Reconciliation

open Munavvar.KeyedTable
open Munavvar.Transaction
open Munavvar.Database
open Munavvar.Statements
open Munavvar.StockLedger (Env)
open Munavvar.OrderService (dayLength)
open Munavvar.ContractService
open Munavvar.OrderChanges
open Munavvar.OrderEffects
open Munavvar.ContractEffects
open Munavvar.AccountStatements (LedgerRow isPosted)
open Munavvar.StableSort

/-! ## The act -/

/-- The orders in which the database scans two tables. -/
structure Scan where
  /-- The scan of the orders. -/
  orders : List (Uuid × Order) → List (Uuid × Order)
  /-- The scan of the transactions. -/
  transactions : List LedgerRow → List LedgerRow
  /-- Every order is scanned once. -/
  orders_perm : ∀ rows, (orders rows).Perm rows
  /-- Every transaction is scanned once. -/
  transactions_perm : ∀ rows, (transactions rows).Perm rows

/-- Rows are listed as they are stored. -/
def Scan.stored : Scan := ⟨id, id, fun _ => .refl _, fun _ => .refl _⟩

/-- What a request for an act raises. -/
inductive Failure
  | raised (e : Err)
  | overflowError
  | attributeError
  deriving DecidableEq, Repr

/-- `date.max`, the last day of the year 9999. -/
def dateMax : ℤ := 2932896

/-- `date_to + timedelta(days=1)`. -/
def nextDay (date : ℤ) : Except Failure ℤ :=
  if date < dateMax then .ok (date + 1) else .error .overflowError

/-- `get_delivered_by_contract` with its order, where the rows of one time stay
as they are scanned. -/
def deliveredRows (scan : Scan) (s : Db) (contractId : Uuid) (dateFrom dateTo : ℤ) :
    List (Uuid × Order) :=
  ((scan.orders s.orders.rows).filter fun r => isDeliveredIn contractId dateFrom dateTo r.2).mergeSort
    (before fun r => r.2.createdAt)

/-- A completed payment of a client into the bank. -/
def isBankPayment (d : Directory) (clientId : Uuid) (row : FinancialTransaction) : Bool :=
  (d.account? row.fromId).any (fun a => a.userId = clientId && a.type = .client) &&
    (d.account? row.toId).any (fun a => a.type = .bank) && isPosted row

/-- `get_bank_payments_for_client`. -/
def getBankPaymentsForClient (scan : Scan) (s : Db) (clientId : Uuid) (fromDt toDt : ℤ) :
    List LedgerRow :=
  ((scan.transactions s.transactions.rows).filter fun r => isBankPayment s.directory clientId r.2 &&
    fromDt ≤ r.2.createdAt && r.2.createdAt < toDt).mergeSort (before fun r => r.2.createdAt)

/-- `ReconciliationOrderItem`. -/
structure ReconciliationOrderItem where
  /-- The order. -/
  orderId : Uuid
  /-- When it was created. -/
  createdAt : ℤ
  /-- Its total. -/
  totalAmount : ℤ
  deriving DecidableEq, Repr

/-- `ReconciliationPaymentItem`. -/
structure ReconciliationPaymentItem where
  /-- The transaction. -/
  transactionId : Uuid
  /-- When it was created. -/
  createdAt : ℤ
  /-- The amount. -/
  amount : ℤ
  /-- Ground of the payment. -/
  reason : String
  deriving DecidableEq, Repr

/-- `ReconciliationResponse`. -/
structure ReconciliationResponse where
  /-- The contract. -/
  contractId : Uuid
  /-- Its number. -/
  contractNumber : String
  /-- The name of its client. -/
  clientName : String
  /-- First day. -/
  periodFrom : ℤ
  /-- Last day. -/
  periodTo : ℤ
  /-- Delivered orders. -/
  orders : List ReconciliationOrderItem
  /-- Sum of the orders. -/
  totalBilled : ℤ
  /-- Payments. -/
  payments : List ReconciliationPaymentItem
  /-- Sum of the payments. -/
  totalPaid : ℤ
  /-- What is billed and not paid. -/
  balance : ℤ
  deriving DecidableEq, Repr

/-- An order on the act. -/
def orderItem (r : Uuid × Order) : ReconciliationOrderItem := ⟨r.1, r.2.createdAt, r.2.totalAmount⟩

/-- A payment on the act. -/
def paymentItem (r : LedgerRow) : ReconciliationPaymentItem :=
  ⟨r.1, r.2.createdAt, r.2.amount, r.2.reason⟩

/-- The act with these orders and payments. -/
def response (contractId : Uuid) (contract : Contract) (client : User) (dateFrom dateTo : ℤ)
    (orderItems : List ReconciliationOrderItem) (paymentItems : List ReconciliationPaymentItem) :
    ReconciliationResponse :=
  let totalBilled := (orderItems.map (·.totalAmount)).sum
  let totalPaid := (paymentItems.map (·.amount)).sum
  { contractId
    contractNumber := contract.number
    clientName := client.username
    periodFrom := dateFrom
    periodTo := dateTo
    orders := orderItems
    totalBilled
    payments := paymentItems
    totalPaid
    balance := totalBilled - totalPaid }

/-- `get_reconciliation`. -/
def getReconciliation (scan : Scan) (s : Db) (contractId : Uuid) (dateFrom dateTo : ℤ) :
    Except Failure ReconciliationResponse := do
  let some contract := (s.contracts.find? contractId).filter Contract.isActive
    | .error (.raised (.contractNotFound contractId))
  let fromDt := dateFrom * dayLength
  let nextDate ← nextDay dateTo
  let toDt := nextDate * dayLength
  let orderItems := (deliveredRows scan s contractId dateFrom dateTo).map orderItem
  let paymentItems :=
    (getBankPaymentsForClient scan s contract.clientId fromDt toDt).map paymentItem
  -- the client is a foreign key, so its row is there
  let some client := s.users.find? contract.clientId | .error .attributeError
  return response contractId contract client dateFrom dateTo orderItems paymentItems

/-! ## Adjacent periods -/

/-- The rows of an act are those of two others, which share none. -/
structure Splits (full left right : ReconciliationResponse) : Prop where
  /-- The orders are those of both. -/
  orders : full.orders.Perm (left.orders ++ right.orders)
  /-- No order is on both. -/
  orders_disjoint : (left.orders.map (·.orderId)).Disjoint (right.orders.map (·.orderId))
  /-- The payments are those of both. -/
  payments : full.payments.Perm (left.payments ++ right.payments)
  /-- No payment is on both. -/
  payments_disjoint :
    (left.payments.map (·.transactionId)).Disjoint (right.payments.map (·.transactionId))
  /-- The orders add up. -/
  totalBilled : full.totalBilled = left.totalBilled + right.totalBilled
  /-- The payments add up. -/
  totalPaid : full.totalPaid = left.totalPaid + right.totalPaid
  /-- The balances add up. -/
  balance : full.balance = left.balance + right.balance

/-- The rows that satisfy one of two conditions, which none does both. -/
theorem filter_perm_of_split {α : Type} {p q r : α → Bool} (rows : List α)
    (hsplit : ∀ x, p x = (q x || r x)) (hnever : ∀ x, ¬ (q x = true ∧ r x = true)) :
    (rows.filter p).Perm (rows.filter q ++ rows.filter r) := by
  have hperm := List.filter_append_perm q (rows.filter p)
  rw [List.filter_filter, List.filter_filter] at hperm
  have hleft : rows.filter (fun x => q x && p x) = rows.filter q := by
    apply List.filter_congr
    intro x _
    rw [hsplit]
    cases q x <;> rfl
  have hright : rows.filter (fun x => !q x && p x) = rows.filter r := by
    apply List.filter_congr
    intro x _
    have hx := hnever x
    rw [hsplit]
    cases hq : q x with
    | true => simpa [hq] using hx
    | false => rfl
  rw [hleft, hright] at hperm
  exact hperm.symm

section Queries

variable {V : Type} {t : Table Uuid V} {p q r : Uuid × V → Bool} {key : Uuid × V → ℤ}
  {scan scan₁ scan₂ : List (Uuid × V) → List (Uuid × V)}

/-- A query lists the rows that satisfy its condition. -/
theorem query_perm (hscan : ∀ rows, (scan rows).Perm rows) :
    (((scan t.rows).filter p).mergeSort (before key)).Perm (t.rows.filter p) :=
  (List.mergeSort_perm _ _).trans ((hscan t.rows).filter p)

/-- A query lists the rows of two others. -/
theorem query_splits (hscan : ∀ rows, (scan rows).Perm rows) (hscan₁ : ∀ rows, (scan₁ rows).Perm rows)
    (hscan₂ : ∀ rows, (scan₂ rows).Perm rows) (hsplit : ∀ x, p x = (q x || r x))
    (hnever : ∀ x, ¬ (q x = true ∧ r x = true)) :
    (((scan t.rows).filter p).mergeSort (before key)).Perm
      (((scan₁ t.rows).filter q).mergeSort (before key) ++
        ((scan₂ t.rows).filter r).mergeSort (before key)) := by
  have hfull : (((scan t.rows).filter p).mergeSort (before key)).Perm _ := query_perm hscan
  have hleft : (((scan₁ t.rows).filter q).mergeSort (before key)).Perm _ := query_perm hscan₁
  have hright : (((scan₂ t.rows).filter r).mergeSort (before key)).Perm _ := query_perm hscan₂
  exact hfull.trans ((filter_perm_of_split t.rows hsplit hnever).trans (hleft.append hright).symm)

/-- Queries with conditions that no row satisfies both list no key in common. -/
theorem query_disjoint (hscan₁ : ∀ rows, (scan₁ rows).Perm rows)
    (hscan₂ : ∀ rows, (scan₂ rows).Perm rows) (hnever : ∀ x, ¬ (q x = true ∧ r x = true)) :
    ((((scan₁ t.rows).filter q).mergeSort (before key)).map Prod.fst).Disjoint
      ((((scan₂ t.rows).filter r).mergeSort (before key)).map Prod.fst) := by
  intro k hk hk'
  obtain ⟨x, hx, rfl⟩ := List.mem_map.mp hk
  obtain ⟨y, hy, hkey⟩ := List.mem_map.mp hk'
  obtain ⟨hxrow, hq⟩ := List.mem_filter.mp ((query_perm hscan₁).mem_iff.mp hx)
  obtain ⟨hyrow, hr⟩ := List.mem_filter.mp ((query_perm hscan₂).mem_iff.mp hy)
  have hfind := (Table.mem_rows_iff t x.1 x.2).mp hxrow
  have hfind' := (Table.mem_rows_iff t y.1 y.2).mp hyrow
  rw [hkey, hfind] at hfind'
  have heq : x = y := Prod.ext hkey.symm (Option.some.inj hfind')
  rw [← heq] at hr
  exact hnever x ⟨hq, hr⟩

end Queries

section Periods

variable {scan scan₁ scan₂ : Scan} {s : Db} {id : Uuid} {a b c : ℤ}

/-- A time of a period is in one of the two periods that it consists of. -/
theorem bounds_split (hab : a ≤ b) (hbc : b < c) (time : ℤ) :
    (decide (a * dayLength ≤ time) && decide (time < (c + 1) * dayLength)) =
      (decide (a * dayLength ≤ time) && decide (time < (b + 1) * dayLength) ||
        decide ((b + 1) * dayLength ≤ time) && decide (time < (c + 1) * dayLength)) := by
  rw [Bool.eq_iff_iff]
  simp only [Bool.or_eq_true, Bool.and_eq_true, decide_eq_true_eq]
  unfold dayLength
  omega

theorem isDeliveredIn_split (hab : a ≤ b) (hbc : b < c) (o : Order) : isDeliveredIn id a c o =
    (isDeliveredIn id a b o || isDeliveredIn id (b + 1) c o) := by
  have hbounds := bounds_split hab hbc o.createdAt
  rw [Bool.eq_iff_iff] at hbounds ⊢
  simp only [isDeliveredIn, Bool.or_eq_true, Bool.and_eq_true, decide_eq_true_eq] at hbounds ⊢
  tauto

theorem isDeliveredIn_never (o : Order) :
    ¬ (isDeliveredIn id a b o = true ∧ isDeliveredIn id (b + 1) c o = true) := by
  rintro ⟨hleft, hright⟩
  simp only [isDeliveredIn, Bool.and_eq_true, decide_eq_true_eq] at hleft hright
  omega

/-- The delivered orders of a period are those of its two parts. -/
theorem deliveredRows_split (hab : a ≤ b) (hbc : b < c) :
    (deliveredRows scan s id a c).Perm
      (deliveredRows scan₁ s id a b ++ deliveredRows scan₂ s id (b + 1) c) :=
  query_splits scan.orders_perm scan₁.orders_perm scan₂.orders_perm
    (fun x => isDeliveredIn_split hab hbc x.2) fun x => isDeliveredIn_never x.2

theorem deliveredRows_disjoint : ((deliveredRows scan₁ s id a b).map Prod.fst).Disjoint
    ((deliveredRows scan₂ s id (b + 1) c).map Prod.fst) :=
  query_disjoint scan₁.orders_perm scan₂.orders_perm fun x => isDeliveredIn_never x.2

/-- The payments of a period are those of its two parts. -/
theorem payments_split (hab : a ≤ b) (hbc : b < c) :
    (getBankPaymentsForClient scan s id (a * dayLength) ((c + 1) * dayLength)).Perm
      (getBankPaymentsForClient scan₁ s id (a * dayLength) ((b + 1) * dayLength) ++
        getBankPaymentsForClient scan₂ s id ((b + 1) * dayLength) ((c + 1) * dayLength)) := by
  apply query_splits scan.transactions_perm scan₁.transactions_perm scan₂.transactions_perm
  · intro x
    rw [Bool.and_assoc, bounds_split hab hbc, Bool.and_or_distrib_left, Bool.and_assoc,
      Bool.and_assoc]
  · rintro x ⟨hleft, hright⟩
    simp only [Bool.and_eq_true, decide_eq_true_eq] at hleft hright
    omega

theorem payments_disjoint {from₁ to₁ to₂ : ℤ} :
    ((getBankPaymentsForClient scan₁ s id from₁ to₁).map Prod.fst).Disjoint
      ((getBankPaymentsForClient scan₂ s id to₁ to₂).map Prod.fst) := by
  apply query_disjoint scan₁.transactions_perm scan₂.transactions_perm
  rintro x ⟨hleft, hright⟩
  simp only [Bool.and_eq_true, decide_eq_true_eq] at hleft hright
  omega

/-- What an act consists of. -/
theorem getReconciliation_eq_ok_iff {act : ReconciliationResponse} :
    getReconciliation scan s id a b = .ok act ↔ ∃ contract client,
      (s.contracts.find? id).filter Contract.isActive = some contract ∧ b < dateMax ∧
      s.users.find? contract.clientId = some client ∧
      act = response id contract client a b ((deliveredRows scan s id a b).map orderItem)
        ((getBankPaymentsForClient scan s contract.clientId (a * dayLength)
          ((b + 1) * dayLength)).map paymentItem) := by
  unfold getReconciliation nextDay
  cases hcontract : (s.contracts.find? id).filter Contract.isActive with
  | none => simp
  | some contract =>
    by_cases hb : b < dateMax
    · cases hclient : s.users.find? contract.clientId with
      | none => simp [bind, Except.bind, hclient, hb]
      | some client => simp [bind, Except.bind, pure, Except.pure, hclient, hb, eq_comm]
    · simp [bind, Except.bind, hb]

/-- Whether an act is refused can be told from the contract and the last day. -/
theorem getReconciliation_eq_error {e : Failure} (h : getReconciliation scan s id a c = .error e)
    (scan₂ : Scan) (b : ℤ) : getReconciliation scan₂ s id b c = .error e := by
  unfold getReconciliation nextDay at *
  cases hcontract : (s.contracts.find? id).filter Contract.isActive with
  | none => simpa [hcontract] using h
  | some contract =>
    by_cases hc : c < dateMax
    · cases hclient : s.users.find? contract.clientId with
      | none => simpa [bind, Except.bind, hcontract, hclient, hc] using h
      | some client => simp [bind, Except.bind, pure, Except.pure, hcontract, hclient, hc] at h
    · simpa [bind, Except.bind, hcontract, hc] using h

/-- Acts with the rows of two others add up. -/
theorem response_splits {id id₁ id₂ : Uuid} {contract contract₁ contract₂ : Contract}
    {client client₁ client₂ : User} {lo hi lo₁ hi₁ lo₂ hi₂ : ℤ}
    {orders orders₁ orders₂ : List (Uuid × Order)} {paid paid₁ paid₂ : List LedgerRow}
    (horders : orders.Perm (orders₁ ++ orders₂))
    (hdisjoint : (orders₁.map Prod.fst).Disjoint (orders₂.map Prod.fst))
    (hpaid : paid.Perm (paid₁ ++ paid₂))
    (hdisjoint' : (paid₁.map Prod.fst).Disjoint (paid₂.map Prod.fst)) :
    Splits (response id contract client lo hi (orders.map orderItem) (paid.map paymentItem))
      (response id₁ contract₁ client₁ lo₁ hi₁ (orders₁.map orderItem) (paid₁.map paymentItem))
      (response id₂ contract₂ client₂ lo₂ hi₂ (orders₂.map orderItem) (paid₂.map paymentItem)) := by
  have hitems := horders.map orderItem
  have hitems' := hpaid.map paymentItem
  rw [List.map_append] at hitems hitems'
  have hbilled := (hitems.map (·.totalAmount)).sum_eq
  have hsum := (hitems'.map (·.amount)).sum_eq
  rw [List.map_append, List.sum_append] at hbilled hsum
  constructor
  · exact hitems
  · simpa [response, orderItem, Function.comp_def] using hdisjoint
  · exact hitems'
  · simpa [response, paymentItem, Function.comp_def] using hdisjoint'
  · exact hbilled
  · exact hsum
  · dsimp only [response]
    omega

end Periods

/-- The act of a period against those of its two parts: all are answered and
add up, or the last part is refused as the whole period is. -/
def Additive (scan scan₁ scan₂ : Scan) (s : Db) (id : Uuid) (a b c : ℤ) : Prop :=
  match getReconciliation scan s id a c with
  | .ok full => ∃ left right, getReconciliation scan₁ s id a b = .ok left ∧
      getReconciliation scan₂ s id (b + 1) c = .ok right ∧ Splits full left right
  | .error e => getReconciliation scan₂ s id (b + 1) c = .error e

section Results

variable {scan scan₁ scan₂ : Scan} {s : Db} {id : Uuid} {a b c : ℤ}

theorem additive_of_le (hab : a ≤ b) (hbc : b < c) : Additive scan scan₁ scan₂ s id a b c := by
  unfold Additive
  cases hfull : getReconciliation scan s id a c with
  | error e => exact getReconciliation_eq_error hfull scan₂ (b + 1)
  | ok full =>
    obtain ⟨contract, client, hcontract, hc, hclient, rfl⟩ := getReconciliation_eq_ok_iff.mp hfull
    have hb : b < dateMax := hbc.trans hc
    refine ⟨_, _, getReconciliation_eq_ok_iff.mpr ⟨contract, client, hcontract, hb, hclient, rfl⟩,
      getReconciliation_eq_ok_iff.mpr ⟨contract, client, hcontract, hc, hclient, rfl⟩, ?_⟩
    apply response_splits
    · exact deliveredRows_split hab hbc
    · exact deliveredRows_disjoint
    · exact payments_split hab hbc
    · exact payments_disjoint

/-- An act bills the orders that an invoice of its period adds up. -/
theorem totalBilled_eq {act : ReconciliationResponse} (h : getReconciliation scan s id a b = .ok act) :
    act.totalBilled = ((getDeliveredByContract id a b s).map Order.totalAmount).sum := by
  obtain ⟨contract, client, -, -, -, rfl⟩ := getReconciliation_eq_ok_iff.mp h
  have hperm : (deliveredRows scan s id a b).Perm _ := query_perm scan.orders_perm
  have hsum := (hperm.map fun r => r.2.totalAmount).sum_eq
  rw [getDeliveredByContract, Table.select, List.map_map]
  dsimp only [response]
  rw [List.map_map]
  exact hsum

/-- An invoice that is generated has the amount that the act of its period bills. -/
theorem invoice_amount_eq {act : ReconciliationResponse}
    (h : getReconciliation scan s id a b = .ok act) {env : Env} {u : Unit} {s' : Db}
    (hrun : (generateInvoice env id a b).run s = .ok (u, s')) :
    ∃ i, s'.invoices.find? (env.uuid 0 0) = some i ∧ i.amount = act.totalBilled := by
  have hexact : Regime.Exact (S := schema) Regime.serial := Regime.serialAsserting_exact _
  have hwp : wp Regime.serial (generateInvoice env id a b) (fun _ (s' : Db) =>
      ∃ i, s'.invoices.find? (env.uuid 0 0) = some i ∧ i.amount = act.totalBilled)
      (fun _ => True) s := by
    apply wp_generateInvoice Tame.serial
    intro i _ _ _ hamount _
    exact ⟨i, Table.find?_put_self _ _ _, (hamount hexact).trans (totalBilled_eq h).symm⟩
  exact wp_serial_run hwp hrun

/-- Acts of adjacent periods add up to that of both, and an act bills what the
invoice of its period does. -/
theorem reconciliation_additive (scan scan₁ scan₂ : Scan) (s : Db) (id : Uuid) :
    (∀ a b c, a ≤ b → b < c → Additive scan scan₁ scan₂ s id a b c) ∧
    ∀ dateFrom dateTo act, getReconciliation scan s id dateFrom dateTo = .ok act →
      ∀ env u s', (generateInvoice env id dateFrom dateTo).run s = .ok (u, s') →
      ∃ i, s'.invoices.find? (env.uuid 0 0) = some i ∧ i.amount = act.totalBilled := by
  constructor
  · intro a b c hab hbc
    exact additive_of_le hab hbc
  · intro dateFrom dateTo act h env u s' hrun
    exact invoice_amount_eq h hrun

end Results

/-- A delivered order of the contract. -/
def deliveredOrder (createdAt totalAmount : ℤ) : Order :=
  ⟨7, 5, some 6, .contract, .delivered, totalAmount, false, .delivery, none, some 31, false, none,
    none, true, createdAt, createdAt, [], []⟩

/-- The office orders just before a midnight and at it, and pays once. -/
def acrossMidnight : Db :=
  { Operations.sampleDb with
    directory := { Operations.sampleDb.directory with
      accounts := Operations.sampleDb.directory.accounts ++ [⟨16, systemUserId, .bank, true, 0, "bank"⟩] }
    orders := ⟨[(41, deliveredOrder (dayLength - 1) 100), (42, deliveredOrder dayLength 70)], by decide⟩
    transactions := ⟨[(91, ⟨15, 16, none, none, 60, .completed, "bank", dayLength, true⟩)], by decide⟩ }

theorem reconciliation_additive_sample :
    ∃ full left right, getReconciliation .stored acrossMidnight 31 0 1 = .ok full ∧
      getReconciliation .stored acrossMidnight 31 0 0 = .ok left ∧
      getReconciliation .stored acrossMidnight 31 1 1 = .ok right ∧ Splits full left right ∧
      full.totalBilled = 170 ∧ left.totalBilled = 100 ∧
      ∃ s' i, (generateInvoice ⟨0, fun i j => 10000 + 100 * i + j⟩ 31 0 1).run acrossMidnight =
        .ok ((), s') ∧ s'.invoices.find? 10000 = some i ∧ i.amount = 170 := by
  obtain ⟨hadditive, hinvoice⟩ := reconciliation_additive .stored .stored .stored acrossMidnight 31
  have hsplits := hadditive 0 0 1 (by omega) (by omega)
  have hanswered : ∃ full, getReconciliation .stored acrossMidnight 31 0 1 = .ok full :=
    ⟨_, getReconciliation_eq_ok_iff.mpr ⟨_, ⟨.clientB2B, true, "office"⟩, rfl, by decide, rfl, rfl⟩⟩
  obtain ⟨full, hfull⟩ := hanswered
  rw [Additive, hfull] at hsplits
  obtain ⟨left, right, hleft, hright, hsplits⟩ := hsplits
  have hbilled : full.totalBilled = 170 := (totalBilled_eq hfull).trans (by decide)
  refine ⟨full, left, right, hfull, hleft, hright, hsplits, hbilled,
    (totalBilled_eq hleft).trans (by decide), ?_⟩
  have hgenerated : ((generateInvoice ⟨0, fun i j => 10000 + 100 * i + j⟩ 31 0 1).run
      acrossMidnight).isOk = true := by decide +kernel
  cases hrun : (generateInvoice ⟨0, fun i j => 10000 + 100 * i + j⟩ 31 0 1).run acrossMidnight with
  | error e =>
    rw [hrun] at hgenerated
    cases hgenerated
  | ok x =>
    obtain ⟨i, hi, hamount⟩ := hinvoice 0 1 full hfull _ x.1 x.2 hrun
    exact ⟨x.2, i, rfl, hi, hamount.trans hbilled⟩

end Munavvar.Reconciliation
