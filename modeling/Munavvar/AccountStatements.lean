import Munavvar.Intervals
import Munavvar.Operations

/-!
# Account statements

A statement of an account adds its completed transactions before the first
day of a period to an opening balance, lists those of the period with a
running balance and closes with the last one. The period reaches from the
first midnight to the last second of its last day, and what happens within
that second is after the period and before the next one.
-/

namespace Munavvar.AccountStatements

open Munavvar.KeyedTable
open Munavvar.Intervals
open Munavvar.Database
open Munavvar.OrderService (dateOf dayLength)
open Munavvar.Operations

/-! ## Dates and times -/

/-- The day of the month of a date, counted from the first of January 1970. -/
def dayOfMonth (date : ℤ) : ℤ :=
  let dayOfEra := (date + 719468) % 146097
  let yearOfEra := (dayOfEra - dayOfEra / 1460 + dayOfEra / 36524 - dayOfEra / 146096) / 365
  let dayOfYear := dayOfEra - (365 * yearOfEra + yearOfEra / 4 - yearOfEra / 100)
  let month := (5 * dayOfYear + 2) / 153
  dayOfYear - (153 * month + 2) / 5 + 1

/-- The last day of a leap year's February, and of a year. -/
example : dayOfMonth 19782 = 29 ∧ dayOfMonth 19783 = 1 ∧ dayOfMonth 20088 = 31 := by decide

/-- A `datetime`. -/
structure DateTime where
  /-- Microseconds that its date and time of day are after the beginning of 1970. -/
  wall : ℤ
  /-- `utcoffset()` in microseconds, if it is aware. -/
  offset : Option ℤ
  deriving DecidableEq, Repr

namespace DateTime

/-- How far a time is ahead of UTC, where naive times are those of the process. -/
def zone (process : ℤ) (t : DateTime) : ℤ := t.offset.getD process

/-- The time that a parameter of a statement stands for. -/
def instant (process : ℤ) (t : DateTime) : ℤ := t.wall - t.zone process

/-- `.date()`. -/
def date (t : DateTime) : ℤ := dateOf t.wall

/-- `.replace(hour=0, minute=0, second=0, microsecond=0)`. -/
def startOfDay (t : DateTime) : DateTime := { t with wall := t.date * dayLength }

/-- `.replace(day=1, hour=0, minute=0, second=0, microsecond=0)`. -/
def startOfMonth (t : DateTime) : DateTime :=
  { t with wall := (t.date - (dayOfMonth t.date - 1)) * dayLength }

end DateTime

/-- From midnight to 23:59:59. -/
def lastSecond : ℤ := 86399000000

/-- `.replace(hour=23, minute=59, second=59, microsecond=0)`. -/
def DateTime.endOfDay (t : DateTime) : DateTime :=
  { t with wall := t.date * dayLength + lastSecond }

/-! ## Queries -/

/-- A stored transaction. -/
abbrev LedgerRow := Uuid × FinancialTransaction

/-- Active and completed. -/
def isPosted (row : FinancialTransaction) : Bool := row.status = .completed && row.isActive

/-- `get_opening_balance_data`: incoming and outgoing amounts before a time. -/
def getOpeningBalanceData (s : Db) (accountId : Uuid) (beforeDate : ℤ) : ℤ × ℤ :=
  let total (side : FinancialTransaction → Uuid) : ℤ :=
    ((s.transactions.rows.filter fun r =>
      side r.2 = accountId && isPosted r.2 && r.2.createdAt < beforeDate).map
        fun r => r.2.amount).sum
  (total (·.toId), total (·.fromId))

/-- The condition of `get_account_transactions_in_period`. -/
def isInPeriod (accountId : Uuid) (dateFrom dateTo : ℤ) (row : FinancialTransaction) : Bool :=
  isPosted row && dateFrom ≤ row.createdAt && row.createdAt ≤ dateTo &&
    (row.fromId = accountId || row.toId = accountId)

/-- `get_account_transactions_in_period`, where the rows of one time are left
in the order in which the database scans them. -/
def getAccountTransactionsInPeriod (scan : List LedgerRow → List LedgerRow) (s : Db)
    (accountId : Uuid) (dateFrom dateTo : ℤ) (skip limit : ℕ) : List LedgerRow :=
  let found := (scan s.transactions.rows).filter fun r => isInPeriod accountId dateFrom dateTo r.2
  ((found.mergeSort fun r r' => r.2.createdAt ≤ r'.2.createdAt).drop skip).take limit

/-! ## Statements -/

/-- `AccountShort`. -/
structure AccountShort where
  /-- The account. -/
  id : Uuid
  /-- Its name. -/
  name : String
  /-- Its kind. -/
  type : AccountType
  /-- Name of the owner, which statements leave out. -/
  userName : Option String := none
  deriving DecidableEq, Repr

/-- `AccountShort.model_validate`. -/
def accountShort (account : Account) : AccountShort := ⟨account.id, account.name, account.type, none⟩

/-- `StatementPeriod`. -/
structure StatementPeriod where
  /-- First day. -/
  dateFrom : ℤ
  /-- Last day. -/
  dateTo : ℤ
  /-- Balance before the first day. -/
  openingBalance : ℤ
  /-- Balance after the last entry. -/
  closingBalance : ℤ
  /-- Sum of the incoming entries. -/
  totalIncoming : ℤ
  /-- Sum of the outgoing entries. -/
  totalOutgoing : ℤ
  deriving DecidableEq, Repr

/-- `StatementEntry`. -/
structure StatementEntry where
  /-- The transaction. -/
  id : Uuid
  /-- Incoming or outgoing. -/
  direction : String
  /-- The other account, found by its foreign key. -/
  counterparty : Option AccountShort
  /-- The amount. -/
  amount : ℤ
  /-- The balance after the transaction. -/
  runningBalance : ℤ
  /-- The transaction's status. -/
  status : TransactionStatus
  /-- The transaction's ground. -/
  reason : String
  /-- The paid order. -/
  orderId : Option Uuid
  /-- When it was inserted. -/
  createdAt : ℤ
  deriving DecidableEq, Repr

/-- `AccountStatement`. -/
structure AccountStatement where
  /-- The account. -/
  account : AccountShort
  /-- The period with its balances. -/
  period : StatementPeriod
  /-- The entries of the page. -/
  transactions : List StatementEntry
  deriving DecidableEq, Repr

/-- The variables of the loop over the transactions of a page. -/
structure Running where
  /-- `running`. -/
  balance : ℤ
  /-- `total_incoming`. -/
  incoming : ℤ
  /-- `total_outgoing`. -/
  outgoing : ℤ
  /-- `entries`. -/
  entries : List StatementEntry

/-- One round of the loop. -/
def Running.add (d : Directory) (accountId : Uuid) (st : Running) (txn : LedgerRow) : Running :=
  let isIncoming := txn.2.toId = accountId
  let running := if isIncoming then st.balance + txn.2.amount else st.balance - txn.2.amount
  { balance := running
    incoming := if isIncoming then st.incoming + txn.2.amount else st.incoming
    outgoing := if isIncoming then st.outgoing else st.outgoing + txn.2.amount
    entries := st.entries ++
      [{ id := txn.1
         direction := if isIncoming then "incoming" else "outgoing"
         counterparty := (d.account? (if isIncoming then txn.2.fromId else txn.2.toId)).map accountShort
         amount := txn.2.amount
         runningBalance := running
         status := txn.2.status
         reason := txn.2.reason
         orderId := txn.2.orderId
         createdAt := txn.2.createdAt }] }

/-- The parameters of a statement, with the time at which it is asked for. -/
structure StatementQuery where
  /-- `datetime.now(tz=UTC)`. -/
  now : ℤ
  /-- First day. -/
  dateFrom : Option DateTime
  /-- Last day. -/
  dateTo : Option DateTime
  /-- Rows to leave out. -/
  skip : ℕ
  /-- Most rows to list. -/
  limit : ℕ

namespace StatementQuery

variable (q : StatementQuery)

/-- `dt_from`: by default the first day of the month. -/
def dtFrom : DateTime :=
  (q.dateFrom.getD (DateTime.startOfMonth ⟨q.now, some 0⟩)).startOfDay

/-- `dt_to`: by default today. -/
def dtTo : DateTime := (q.dateTo.getD ⟨q.now, some 0⟩).endOfDay

end StatementQuery

/-- `get_account_statement`. -/
def getAccountStatement (scan : List LedgerRow → List LedgerRow) (process : ℤ) (s : Db)
    (accountId : Uuid) (q : StatementQuery) : Except Err AccountStatement := do
  let some account := (s.directory.account? accountId).filter Account.isActive
    | throw (.notFound s!"Финансовый счет {accountId} не найден." "ACCOUNT_NOT_FOUND"
        [("account_id", .id accountId)])
  let before := getOpeningBalanceData s accountId (q.dtFrom.instant process)
  let openingBalance := before.1 - before.2
  let transactions := getAccountTransactionsInPeriod scan s accountId (q.dtFrom.instant process)
    (q.dtTo.instant process) q.skip q.limit
  let st := transactions.foldl (Running.add s.directory accountId) ⟨openingBalance, 0, 0, []⟩
  return {
    account := accountShort account
    period := ⟨q.dtFrom.date, q.dtTo.date, openingBalance, st.balance, st.incoming, st.outgoing⟩
    transactions := st.entries }

/-! ## What a statement adds up -/

/-- The posted transactions of an account. -/
def isOf (a : Uuid) (row : FinancialTransaction) : Bool :=
  isPosted row && (row.fromId = a || row.toId = a)

/-- What a transaction of an account adds to its balance. -/
def change (a : Uuid) (row : FinancialTransaction) : ℤ :=
  if row.toId = a then row.amount else -row.amount

/-- What the posted transactions of an account at some times add to its balance. -/
def balanceOver (s : Db) (a : Uuid) (p : ℤ → Bool) : ℤ :=
  ((s.transactions.rows.filter fun r => isOf a r.2 && p r.2.createdAt).map fun r =>
    change a r.2).sum

section Sums

variable {s : Db} {a : Uuid} {p p' : ℤ → Bool}

/-- A balance depends only on which of the account's transactions count. -/
theorem balanceOver_congr
    (h : ∀ r ∈ s.transactions.rows, isOf a r.2 = true → p r.2.createdAt = p' r.2.createdAt) :
    balanceOver s a p = balanceOver s a p' := by
  unfold balanceOver
  have hsame : s.transactions.rows.filter (fun r => isOf a r.2 && p r.2.createdAt) =
      s.transactions.rows.filter (fun r => isOf a r.2 && p' r.2.createdAt) := by
    apply List.filter_congr
    intro r hr
    cases hof : isOf a r.2 with
    | false => rfl
    | true => rw [h r hr hof]
  rw [hsame]

/-- The balances over times without a common one add up. -/
theorem balanceOver_or (h : ∀ t, p t = true → p' t = false) :
    balanceOver s a (fun t => p t || p' t) = balanceOver s a p + balanceOver s a p' := by
  unfold balanceOver
  dsimp only
  induction s.transactions.rows with
  | nil => rfl
  | cons r rows ih =>
    cases hof : isOf a r.2 with
    | false =>
      simp only [List.filter_cons, hof, Bool.false_and, Bool.false_eq_true, if_false]
      exact ih
    | true =>
      have hr := h r.2.createdAt
      simp only [List.filter_cons, hof, Bool.true_and]
      cases hp : p r.2.createdAt with
      | false =>
        cases hp' : p' r.2.createdAt with
        | false =>
          simp only [Bool.or_false, Bool.false_eq_true, if_false]
          exact ih
        | true =>
          simp only [Bool.false_or, Bool.false_eq_true, if_false, if_true, List.map_cons,
            List.sum_cons]
          omega
      | true =>
        rw [hr hp]
        simp only [Bool.true_or, Bool.false_eq_true, if_false, if_true, List.map_cons,
          List.sum_cons]
        omega

/-- Incoming less outgoing amounts, as no transaction leads from an account to itself. -/
theorem openingBalance_eq (hroute : ∀ r ∈ s.transactions.rows, r.2.fromId ≠ r.2.toId) (t : ℤ) :
    (getOpeningBalanceData s a t).1 - (getOpeningBalanceData s a t).2 =
      balanceOver s a (fun u => u < t) := by
  unfold getOpeningBalanceData balanceOver
  dsimp only
  generalize s.transactions.rows = rows at hroute
  induction rows with
  | nil => rfl
  | cons r rows ih =>
    have hrest := ih fun r' hr' => hroute r' (List.mem_cons_of_mem r hr')
    have hr := hroute r List.mem_cons_self
    simp only [List.filter_cons, isOf, change]
    by_cases hcounts : (isPosted r.2 && decide (r.2.createdAt < t)) = true
    · rw [Bool.and_eq_true] at hcounts
      obtain ⟨hposted, htime⟩ := hcounts
      simp only [hposted, htime, Bool.and_true, Bool.true_and, decide_eq_true_eq, Bool.or_eq_true]
      by_cases hto : r.2.toId = a
      · have hfrom : r.2.fromId ≠ a := fun hfrom => hr (hfrom.trans hto.symm)
        simp only [hto, hfrom, or_true, if_true, if_false, List.map_cons, List.sum_cons]
        simp only [isOf, change] at hrest
        omega
      · by_cases hfrom : r.2.fromId = a
        · simp only [hto, hfrom, true_or, if_true, if_false, List.map_cons, List.sum_cons]
          simp only [isOf, change] at hrest
          omega
        · simp only [hto, hfrom, or_self, if_false]
          exact hrest
    · have hskip : ∀ b : Bool, (b && isPosted r.2 && decide (r.2.createdAt < t)) = false := by
        intro b
        rw [Bool.and_assoc, Bool.eq_false_of_not_eq_true hcounts, Bool.and_false]
      have hskip' : ∀ b : Bool, (isPosted r.2 && b && decide (r.2.createdAt < t)) = false := by
        intro b
        rw [Bool.and_comm (isPosted r.2) b, hskip b]
      simp only [hskip, hskip', Bool.false_eq_true, if_false]
      exact hrest

end Sums

/-! ## The loop -/

/-- The loop adds the changes and lists the transactions one by one. -/
theorem foldl_add (d : Directory) (a : Uuid) (rows : List LedgerRow) (st : Running) :
    (rows.foldl (Running.add d a) st).balance =
        st.balance + (rows.map fun r => change a r.2).sum ∧
      (rows.foldl (Running.add d a) st).entries.map StatementEntry.id =
        st.entries.map StatementEntry.id ++ rows.map Prod.fst := by
  induction rows generalizing st with
  | nil => simp
  | cons r rows ih =>
    obtain ⟨hbalance, hentries⟩ := ih (Running.add d a st r)
    rw [List.foldl_cons, List.map_cons, List.sum_cons, List.map_cons]
    constructor
    · rw [hbalance]
      have hstep : (Running.add d a st r).balance = st.balance + change a r.2 := by
        unfold Running.add change
        dsimp only
        split <;> omega
      omega
    · rw [hentries]
      simp [Running.add]

/-- What an unpaged statement says. -/
structure Stated (s : Db) (a : Uuid) (dateFrom dateTo : ℤ) (st : AccountStatement) : Prop where
  /-- It opens with what was posted before the period. -/
  opening : st.period.openingBalance = balanceOver s a (fun t => t < dateFrom)
  /-- It closes with that and what was posted within the period. -/
  closing : st.period.closingBalance = balanceOver s a (fun t => t < dateFrom) +
    balanceOver s a (fun t => dateFrom ≤ t && t ≤ dateTo)
  /-- It lists what was posted within the period. -/
  listed : List.Perm (st.transactions.map StatementEntry.id)
    ((s.transactions.rows.filter fun r => isInPeriod a dateFrom dateTo r.2).map Prod.fst)

/-- A query that leaves out no row. -/
def Unpaged (s : Db) (q : StatementQuery) : Prop :=
  q.skip = 0 ∧ s.transactions.rows.length ≤ q.limit

section Statement

variable {scan : List LedgerRow → List LedgerRow} {process : ℤ} {s : Db} {a : Uuid}
  {q : StatementQuery}

theorem isInPeriod_eq (dateFrom dateTo : ℤ) (row : FinancialTransaction) :
    isInPeriod a dateFrom dateTo row =
      (isOf a row && (decide (dateFrom ≤ row.createdAt) && decide (row.createdAt ≤ dateTo))) := by
  unfold isInPeriod isOf
  cases isPosted row <;> cases decide (dateFrom ≤ row.createdAt) <;>
    cases decide (row.createdAt ≤ dateTo) <;> simp

/-- Without paging the rows of the period are found, in some order. -/
theorem getAccountTransactionsInPeriod_perm (hscan : ∀ rows, (scan rows).Perm rows)
    (hunpaged : Unpaged s q) (dateFrom dateTo : ℤ) :
    (getAccountTransactionsInPeriod scan s a dateFrom dateTo q.skip q.limit).Perm
      (s.transactions.rows.filter fun r => isInPeriod a dateFrom dateTo r.2) := by
  unfold getAccountTransactionsInPeriod
  dsimp only
  have hfound := (hscan s.transactions.rows).filter fun r => isInPeriod a dateFrom dateTo r.2
  have hsorted := List.mergeSort_perm ((scan s.transactions.rows).filter fun r =>
    isInPeriod a dateFrom dateTo r.2) fun r r' => decide (r.2.createdAt ≤ r'.2.createdAt)
  have hlength := (hsorted.trans hfound).length_eq
  have hle := List.length_filter_le (fun r => isInPeriod a dateFrom dateTo r.2) s.transactions.rows
  rw [hunpaged.1, List.drop_zero, List.take_of_length_le]
  · exact hsorted.trans hfound
  · exact (hlength.le.trans hle).trans hunpaged.2

/-- An active account has a statement for every query, and without paging it is complete. -/
theorem getAccountStatement_spec (process : ℤ) (q : StatementQuery)
    (hscan : ∀ rows, (scan rows).Perm rows)
    (hroute : ∀ r ∈ s.transactions.rows, r.2.fromId ≠ r.2.toId)
    (haccount : (s.directory.account? a).any Account.isActive = true) :
    ∃ st, getAccountStatement scan process s a q = .ok st ∧
      st.period.openingBalance = balanceOver s a (fun t => t < q.dtFrom.instant process) ∧
      (Unpaged s q → Stated s a (q.dtFrom.instant process) (q.dtTo.instant process) st) := by
  obtain ⟨account, hfound, hactive⟩ := (Option.any_eq_true _ _).mp haccount
  have hopen := openingBalance_eq (a := a) hroute (q.dtFrom.instant process)
  unfold getAccountStatement
  rw [hfound, Option.filter_some, if_pos hactive]
  refine ⟨_, rfl, hopen, fun hunpaged => ?_⟩
  have hrows := getAccountTransactionsInPeriod_perm (a := a) hscan hunpaged
    (q.dtFrom.instant process) (q.dtTo.instant process)
  obtain ⟨hbalance, hentries⟩ := foldl_add s.directory a
    (getAccountTransactionsInPeriod scan s a (q.dtFrom.instant process) (q.dtTo.instant process)
      q.skip q.limit)
    ⟨(getOpeningBalanceData s a (q.dtFrom.instant process)).1 -
      (getOpeningBalanceData s a (q.dtFrom.instant process)).2, 0, 0, []⟩
  constructor
  · exact hopen
  · refine hbalance.trans ?_
    rw [hopen, (hrows.map fun r => change a r.2).sum_eq]
    simp only [isInPeriod_eq]
    rfl
  · refine (List.Perm.of_eq hentries).trans ?_
    exact hrows.map Prod.fst

/-! ## Periods -/

/-- The first moment of a period, told by its first day. -/
theorem dtFrom_instant (q : StatementQuery) (process : ℤ) : q.dtFrom.instant process =
    q.dtFrom.date * dayLength - q.dtFrom.zone process := by
  unfold StatementQuery.dtFrom DateTime.startOfDay DateTime.instant DateTime.date dateOf dayLength
  dsimp only
  omega

/-- The last moment of a period, told by its last day. -/
theorem dtTo_instant (q : StatementQuery) (process : ℤ) : q.dtTo.instant process =
    q.dtTo.date * dayLength + lastSecond - q.dtTo.zone process := by
  unfold StatementQuery.dtTo DateTime.endOfDay DateTime.instant DateTime.date dateOf dayLength
    lastSecond
  dsimp only
  omega

/-- Days that begin and end in a zone. -/
structure InZone (process zone : ℤ) (q : StatementQuery) : Prop where
  /-- The zone of the first day. -/
  first : q.dtFrom.zone process = zone
  /-- The zone of the last day. -/
  last : q.dtTo.zone process = zone
  /-- There is a day. -/
  period : q.dtFrom.date ≤ q.dtTo.date

/-- The transactions on a statement. -/
def listed (scan : List LedgerRow → List LedgerRow) (process : ℤ) (s : Db) (a : Uuid)
    (q : StatementQuery) : List Uuid :=
  match getAccountStatement scan process s a q with
  | .ok st => st.transactions.map StatementEntry.id
  | .error _ => []

/-- Complete statements of an account over days of a zone fit together. -/
structure Chained (scan : List LedgerRow → List LedgerRow) (process zone : ℤ) (s : Db) (a : Uuid) :
    Prop where
  /-- A period that ends on a day closes as one that starts on the next day opens. -/
  closes : ∀ q q' : StatementQuery, Unpaged s q →
    q.dtFrom.instant process ≤ q.dtTo.instant process → q.dtTo.zone process = zone →
    q'.dtFrom.zone process = zone → q'.dtFrom.date = q.dtTo.date + 1 →
    ∃ st st', getAccountStatement scan process s a q = .ok st ∧
      getAccountStatement scan process s a q' = .ok st' ∧
      st.period.closingBalance = st'.period.openingBalance
  /-- Over consecutive periods every completed transaction is listed once. -/
  once : ∀ (plan : List StatementQuery) (first last : StatementQuery),
    (∀ q ∈ plan, Unpaged s q ∧ InZone process zone q) →
    Consecutive (fun q => q.dtFrom.date) (fun q => q.dtTo.date) plan →
    plan.head? = some first → plan.getLast? = some last →
    ∀ id x, s.transactions.find? id = some x → x.status = .completed →
      (x.fromId = a ∨ x.toId = a) → first.dtFrom.date ≤ dateOf (x.createdAt + zone) →
      dateOf (x.createdAt + zone) ≤ last.dtTo.date →
      (plan.flatMap (listed scan process s a)).count id = 1

/-- No completed transaction of an account is archived or falls into the last
second of a day after its beginning. -/
def Reported (zone : ℤ) (s : Db) (a : Uuid) : Prop :=
  ∀ id x, s.transactions.find? id = some x → x.status = .completed →
    (x.fromId = a ∨ x.toId = a) →
    x.isActive = true ∧ (x.createdAt + zone) % dayLength ≤ lastSecond

variable (hscan : ∀ rows, (scan rows).Perm rows)
  (hroute : ∀ r ∈ s.transactions.rows, r.2.fromId ≠ r.2.toId)
  (haccount : (s.directory.account? a).any Account.isActive = true)

include hscan hroute haccount

/-- A complete statement lists a transaction once if it is posted within the period. -/
theorem count_listed (hunpaged : Unpaged s q) {id : Uuid} {x : FinancialTransaction}
    (hx : s.transactions.find? id = some x) :
    (listed scan process s a q).count id =
      if isInPeriod a (q.dtFrom.instant process) (q.dtTo.instant process) x = true then 1 else 0 := by
  obtain ⟨st, hst, -, hstated⟩ := getAccountStatement_spec process q hscan hroute haccount
  have hlisted := (hstated hunpaged).listed
  have hnodup : (((s.transactions.rows.filter fun r =>
      isInPeriod a (q.dtFrom.instant process) (q.dtTo.instant process) r.2)).map Prod.fst).Nodup :=
    (List.filter_sublist.map Prod.fst).nodup s.transactions.nodup
  rw [listed, hst]
  dsimp only
  rw [hlisted.count_eq]
  split
  · next hin =>
    refine List.count_eq_one_of_mem hnodup ?_
    exact List.mem_map.mpr ⟨(id, x), List.mem_filter.mpr
      ⟨(Table.mem_rows_iff _ _ _).mpr hx, hin⟩, rfl⟩
  · next hout =>
    refine List.count_eq_zero_of_not_mem fun hmem => ?_
    obtain ⟨⟨id', x'⟩, hrow, rfl⟩ := List.mem_map.mp hmem
    obtain ⟨hrow, hin⟩ := List.mem_filter.mp hrow
    cases ((Table.mem_rows_iff _ _ _).mp hrow).symm.trans hx
    exact hout hin

/-- The opening balance counts what the period before has counted if nothing is lost. -/
theorem closes_of_reported {zone : ℤ} (h : Reported zone s a) {q q' : StatementQuery}
    (hunpaged : Unpaged s q) (hperiod : q.dtFrom.instant process ≤ q.dtTo.instant process)
    (hzone : q.dtTo.zone process = zone) (hzone' : q'.dtFrom.zone process = zone)
    (hnext : q'.dtFrom.date = q.dtTo.date + 1) :
    ∃ st st', getAccountStatement scan process s a q = .ok st ∧
      getAccountStatement scan process s a q' = .ok st' ∧
      st.period.closingBalance = st'.period.openingBalance := by
  obtain ⟨st, hst, -, hstated⟩ := getAccountStatement_spec process q hscan hroute haccount
  obtain ⟨st', hst', hopens, -⟩ := getAccountStatement_spec process q' hscan hroute haccount
  refine ⟨st, st', hst, hst', ?_⟩
  rw [(hstated hunpaged).closing, hopens, ← balanceOver_or]
  · apply balanceOver_congr
    intro r hr hof
    rw [isOf, isPosted, Bool.and_eq_true, Bool.and_eq_true, Bool.or_eq_true] at hof
    obtain ⟨⟨hcompleted, -⟩, hside⟩ := hof
    rw [decide_eq_true_eq, decide_eq_true_eq] at hside
    have hfound := (Table.mem_rows_iff _ _ _).mp hr
    obtain ⟨-, hday⟩ := h r.1 r.2 hfound (of_decide_eq_true hcompleted) hside
    have hto := dtTo_instant q process
    have hfrom' := dtFrom_instant q' process
    rw [hzone] at hto
    rw [hzone', hnext] at hfrom'
    unfold dayLength lastSecond at *
    rw [Bool.eq_iff_iff, Bool.or_eq_true, Bool.and_eq_true, decide_eq_true_eq, decide_eq_true_eq,
      decide_eq_true_eq, decide_eq_true_eq]
    omega
  · intro t ht
    have hbefore := of_decide_eq_true ht
    rw [decide_eq_false (by omega), Bool.false_and]

/-- Of a posted transaction that no period loses the day decides who lists it. -/
theorem count_listed_of_reported {zone : ℤ} (h : Reported zone s a) {q : StatementQuery}
    (hunpaged : Unpaged s q) (hzone : InZone process zone q) {id : Uuid} {x : FinancialTransaction}
    (hx : s.transactions.find? id = some x) (hcompleted : x.status = .completed)
    (hside : x.fromId = a ∨ x.toId = a) :
    (listed scan process s a q).count id =
      if q.dtFrom.date ≤ dateOf (x.createdAt + zone) ∧ dateOf (x.createdAt + zone) ≤ q.dtTo.date
      then 1 else 0 := by
  rw [count_listed hscan hroute haccount hunpaged hx]
  obtain ⟨hactive, hday⟩ := h id x hx hcompleted hside
  have hfrom := dtFrom_instant q process
  have hto := dtTo_instant q process
  rw [hzone.first] at hfrom
  rw [hzone.last] at hto
  have hiff : isInPeriod a (q.dtFrom.instant process) (q.dtTo.instant process) x = true ↔
      q.dtFrom.date ≤ dateOf (x.createdAt + zone) ∧
        dateOf (x.createdAt + zone) ≤ q.dtTo.date := by
    rw [isInPeriod, isPosted, hactive, decide_eq_true hcompleted]
    have hof : (decide (x.fromId = a) || decide (x.toId = a)) = true := by
      rw [Bool.or_eq_true, decide_eq_true_eq, decide_eq_true_eq]
      exact hside
    rw [hof, Bool.and_true, Bool.and_true, Bool.true_and, Bool.and_eq_true, decide_eq_true_eq,
      decide_eq_true_eq]
    unfold dateOf dayLength lastSecond at *
    omega
  simp only [hiff]

/-- A day's own statement lists a transaction of the day only if it is not lost. -/
theorem reported_of_once {zone : ℤ} (h : Chained scan process zone s a) : Reported zone s a := by
  intro id x hx hcompleted hside
  let day : DateTime := ⟨dateOf (x.createdAt + zone) * dayLength, some zone⟩
  let q : StatementQuery := ⟨0, some day, some day, 0, s.transactions.rows.length⟩
  have hfirst : q.dtFrom.date = dateOf (x.createdAt + zone) := by
    change dateOf (dateOf (dateOf (x.createdAt + zone) * dayLength) * dayLength) = _
    unfold dateOf dayLength
    omega
  have hlast : q.dtTo.date = dateOf (x.createdAt + zone) := by
    change dateOf (dateOf (dateOf (x.createdAt + zone) * dayLength) * dayLength + lastSecond) = _
    unfold dateOf dayLength lastSecond
    omega
  have hunpaged : Unpaged s q := ⟨rfl, le_rfl⟩
  have hzone : InZone process zone q := ⟨rfl, rfl, by rw [hfirst, hlast]⟩
  have honce := h.once [q] q q
    (fun q' hq' => by rw [List.mem_singleton.mp hq']; exact ⟨hunpaged, hzone⟩)
    (List.isChain_singleton q) rfl rfl id x hx hcompleted hside hfirst.le hlast.ge
  rw [List.flatMap_cons, List.flatMap_nil, List.append_nil,
    count_listed hscan hroute haccount hunpaged hx] at honce
  have hin : isInPeriod a (q.dtFrom.instant process) (q.dtTo.instant process) x = true := by
    by_contra hout
    rw [if_neg hout] at honce
    cases honce
  rw [isInPeriod, isPosted, Bool.and_eq_true, Bool.and_eq_true, Bool.and_eq_true,
    Bool.and_eq_true] at hin
  obtain ⟨⟨⟨⟨-, hactive⟩, -⟩, hbefore⟩, -⟩ := hin
  have hto := dtTo_instant q process
  rw [hlast, hzone.last] at hto
  have hle := of_decide_eq_true hbefore
  refine ⟨hactive, ?_⟩
  unfold dateOf dayLength lastSecond at *
  omega

/-- The complete statements of an account chain exactly if none of its
completed transactions falls between the last second of a day and midnight. -/
theorem statements_chain_iff (zone : ℤ) : Chained scan process zone s a ↔ Reported zone s a := by
  constructor
  · exact reported_of_once hscan hroute haccount
  · intro h
    constructor
    · intro q q' hunpaged hperiod hzone hzone' hnext
      exact closes_of_reported hscan hroute haccount h hunpaged hperiod hzone hzone' hnext
    · intro plan first last hplan hconsecutive hfirst hlast id x hx hcompleted hside hlo hhi
      rw [List.count_flatMap]
      refine hconsecutive.sum_eq_one (fun q hq => (hplan q hq).2.period) hfirst hlast hlo hhi ?_
      intro q hq
      obtain ⟨hunpaged, hzone⟩ := hplan q hq
      exact count_listed_of_reported hscan hroute haccount h hunpaged hzone hx hcompleted hside

end Statement

/-! ## A second of the day -/

/-- The office pays by card at some time. -/
def paidAt (createdAt : ℤ) : Db :=
  { sampleDb with
    transactions := ⟨[(90, ⟨15, 13, none, none, 700, .completed, "card", createdAt, true⟩)],
      List.nodup_singleton _⟩ }

/-- A query for a day in UTC. -/
def onDay (date : ℤ) : StatementQuery :=
  ⟨0, some ⟨date * dayLength, some 0⟩, some ⟨date * dayLength, some 0⟩, 0, 1⟩

theorem statements_chain_iff_sample :
    Chained id 0 0 (paidAt 0) 15 ↔ Reported 0 (paidAt 0) 15 :=
  statements_chain_iff (fun rows => List.Perm.refl rows) (by decide) (by decide) 0

/-- Half a second before midnight the payment is on no statement, but the next
day opens with it. -/
theorem statement_loses_payment :
    ¬ ∀ (scan : List LedgerRow → List LedgerRow) (process zone : ℤ) (s : Db) (a : Uuid),
      (∀ rows, (scan rows).Perm rows) → (∀ r ∈ s.transactions.rows, r.2.fromId ≠ r.2.toId) →
      (s.directory.account? a).any Account.isActive = true → Chained scan process zone s a := by
  intro hclaim
  have hchained := hclaim id 0 0 (paidAt 86399500000) 15 (fun rows => List.Perm.refl rows)
    (by decide) (by decide)
  obtain ⟨st, st', hst, hst', heq⟩ := hchained.closes (onDay 0) (onDay 1) ⟨rfl, le_rfl⟩ (by decide)
    rfl rfl (by decide)
  have hclosing : (getAccountStatement id 0 (paidAt 86399500000) 15 (onDay 0)).toOption.map
      (fun st => st.period.closingBalance) = some 0 := by decide +kernel
  have hopening : (getAccountStatement id 0 (paidAt 86399500000) 15 (onDay 1)).toOption.map
      (fun st => st.period.openingBalance) = some (-700) := by decide +kernel
  rw [hst, Except.toOption, Option.map_some, Option.some.injEq] at hclosing
  rw [hst', Except.toOption, Option.map_some, Option.some.injEq] at hopening
  rw [hclosing, hopening] at heq
  cases heq

end Munavvar.AccountStatements
