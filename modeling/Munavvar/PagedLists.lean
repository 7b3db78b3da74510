import Munavvar.Bag
import Munavvar.ListSummaries
import Munavvar.OffsetPages

/-!
# Lists by page number

The lists of transactions, stock movements and accounts are served page by page
down to a fixed depth. A reader who asks for page after page gets every row of
the list exactly once if the list is not deeper and the order leaves no choice
at a page's end. The two ledgers order rows of one time by their identifiers.
The accounts are ordered by the time they were made and nothing else.
-/

namespace Munavvar.PagedLists

open Munavvar.KeyedTable
open Munavvar.Database
open Munavvar.DoubleEntry
open Munavvar.ListSummaries
open Munavvar.OffsetPages

/-! ## Pages of a service -/

/-- `MAX_PAGE_DEPTH`. -/
def maxPageDepth : ℕ := 10000

/-- `PaginationTooDeepError` with the code `PAGINATION_TOO_DEEP`. -/
structure PaginationTooDeepError where
  /-- The text for the caller. -/
  message : String
  /-- The page asked for. -/
  page : ℕ
  /-- Its size. -/
  size : ℕ
  /-- The greatest depth. -/
  limit : ℕ
  deriving DecidableEq, Repr

/-- `OffsetPaginationMeta`. -/
structure OffsetPaginationMeta where
  /-- The page's number. -/
  page : ℕ
  /-- The most rows of a page. -/
  size : ℕ
  /-- The number of rows without paging. -/
  totalCount : ℕ
  /-- The number of pages. -/
  totalPages : ℕ
  deriving DecidableEq, Repr

/-- A page of a list with its summary. -/
structure ListResponse (α σ : Type) where
  /-- The rows. -/
  items : List α
  /-- The place of the page. -/
  pagination : OffsetPaginationMeta
  /-- The summary of the whole list. -/
  summary : σ

/-- `_check_pagination`. -/
def checkPagination (message : String) (page size : ℕ) : Except PaginationTooDeepError Unit :=
  if maxPageDepth < page * size then .error ⟨message, page, size, maxPageDepth⟩ else .ok ()

/-- `_total_pages`. -/
def totalPages (total size : ℕ) : ℕ := if size ≤ 0 then 0 else (total + size - 1) / size

/-- The pages of a service, numbered from one. -/
def listPage {α σ : Type} (message : String) (fetch : ℕ → ℕ → ListSummaries.Page α) (summary : σ)
    (page size : ℕ) : Except PaginationTooDeepError (ListResponse α σ) := do
  checkPagination message page size
  let skip := (page - 1) * size
  let found := fetch skip size
  return ⟨found.items, ⟨page, size, found.total, totalPages found.total size⟩, summary⟩

/-- The text of the module of finances. -/
def financesTooDeep : String :=
  "Слишком глубокая пагинация. Уточните фильтры или дождитесь cursor-пагинации."

/-- The text of the module of inventories. -/
def inventoryTooDeep : String :=
  "Слишком глубокая пагинация. Уточните фильтры или перейдите на cursor-режим."

/-- `BillingService.get_transactions` on a filter that has passed its checks. -/
def getTransactions (search : TextSearch) (s : Db) (f : TransactionFilter) (page size : ℕ) :
    Except PaginationTooDeepError (ListResponse JoinedTransaction TransactionSummary) :=
  listPage financesTooDeep (getTransactionsWithFilters search s f)
    (getTransactionsSummary search s f) page size

/-- `StockLedgerService.list` on a filter that has passed its checks. -/
def stockLedgerList (search : TextSearch) (s : Db) (f : StockTransactionFilter) (page size : ℕ) :
    Except PaginationTooDeepError (ListResponse JoinedMovement StockSummary) :=
  listPage inventoryTooDeep (searchMovements search s f) (summarizeMovements search s f) page size

/-! ## Accounts -/

/-- `AccountFilter`; the free text `q` has passed its normalisation. -/
structure AccountFilter where
  /-- Free text. -/
  q : Option String := none
  /-- Types. -/
  typeIn : Option (List AccountType) := none
  /-- The owner. -/
  userId : Option Uuid := none
  /-- Roles of the owner. -/
  userRoleIn : Option (List Role) := none
  /-- Least balance. -/
  balanceFrom : Option ℤ := none
  /-- Greatest balance. -/
  balanceTo : Option ℤ := none
  /-- Whether the balance is negative. -/
  isInCredit : Option Bool := none
  /-- Whether only accounts without a balance are listed. -/
  zeroBalance : Option Bool := none
  /-- Whether only clients in debt are listed. -/
  hasDebt : Option Bool := none
  /-- Earliest creation. -/
  createdFrom : Option ℤ := none
  /-- Latest creation. -/
  createdTo : Option ℤ := none

/-- An account with its owner. -/
structure JoinedAccount where
  /-- The account. -/
  account : Account
  /-- The account's balance. -/
  balance : ℤ
  /-- The owner. -/
  user : User
  deriving DecidableEq, Repr

/-- The accounts joined with their owners. -/
def accountJoins (s : Db) : List JoinedAccount :=
  s.directory.accounts.filterMap fun a =>
    (s.users.find? a.userId).map fun u => ⟨a, balance s.accountBalances a.id, u⟩

/-- `_apply_account_filters`. -/
def AccountFilter.admits (search : TextSearch) (f : AccountFilter) (j : JoinedAccount) : Bool :=
  j.account.isActive &&
  unsetIn f.typeIn j.account.type &&
  (unset f.userId fun u => j.account.userId = u) &&
  unsetIn f.userRoleIn j.user.role &&
  (unset f.balanceFrom fun n => n ≤ j.balance) &&
  (unset f.balanceTo fun n => j.balance ≤ n) &&
  (unset f.isInCredit fun b => if b then j.balance < 0 else 0 ≤ j.balance) &&
  (unset f.zeroBalance fun b => !b || j.balance = 0) &&
  (unset f.hasDebt fun b => !b || (j.account.type = .client && 0 < j.balance)) &&
  (unset f.createdFrom fun t => t ≤ j.account.createdAt) &&
  (unset f.createdTo fun t => j.account.createdAt ≤ t) &&
  (unset f.q fun q => search.ilike j.account.name q || search.ilike j.user.username q)

/-- The filtered join that the list and the summary build. -/
def matchedAccounts (search : TextSearch) (s : Db) (f : AccountFilter) : List JoinedAccount :=
  (accountJoins s).filter (f.admits search)

/-- `ORDER BY created_at DESC`. -/
def newestFirst (a b : JoinedAccount) : Prop := b.account.createdAt ≤ a.account.createdAt

/-- `get_accounts_with_filters`, from the answer that the database gives to the order. -/
def getAccountsWithFilters (search : TextSearch) (s : Db) (f : AccountFilter)
    (answer : List JoinedAccount) (skip limit : ℕ) : ListSummaries.Page JoinedAccount where
  total := (matchedAccounts search s f).length
  items := (answer.drop skip).take limit

/-- `AccountSummary`. -/
structure AccountSummary where
  /-- Sum of the balances. -/
  sumBalance : ℤ
  /-- Number of accounts of each type that occurs. -/
  countByType : List (AccountType × ℕ)
  deriving DecidableEq, Repr

/-- `get_accounts_summary`. -/
def getAccountsSummary (search : TextSearch) (s : Db) (f : AccountFilter) : AccountSummary where
  sumBalance := ((matchedAccounts search s f).map fun j => j.balance).sum
  countByType := Bag.collect ((matchedAccounts search s f).map fun j => (j.account.type, 1))

/-- `BillingService.get_accounts`. -/
def getAccounts (search : TextSearch) (s : Db) (f : AccountFilter) (answer : List JoinedAccount)
    (page size : ℕ) : Except PaginationTooDeepError (ListResponse JoinedAccount AccountSummary) :=
  listPage financesTooDeep (getAccountsWithFilters search s f answer)
    (getAccountsSummary search s f) page size

/-- The summary describes exactly some accounts. -/
structure AccountSummary.Agrees (summary : AccountSummary) (rows : List JoinedAccount) : Prop where
  /-- The sum is over them. -/
  sum_eq : summary.sumBalance = (rows.map fun j => j.balance).sum
  /-- Their types are counted. -/
  count_eq : ∀ type, (summary.countByType.lookup type).getD 0 =
    (rows.filter fun j => j.account.type = type).length

/-! ## The depth -/

/-- Ask for all pages, from the first to the last. -/
def readAll {α σ : Type} (serve : ℕ → Except PaginationTooDeepError (ListResponse α σ)) (fuel : ℕ) :
    Option (Except PaginationTooDeepError (List α)) :=
  follow (fun page => (serve page).map fun r => ⟨r.items, r.pagination.totalPages⟩) fuel 1

/-- The requests that reading a list takes. -/
def enough (total size : ℕ) : ℕ := max 1 (totalPages total size)

section Depth

variable {α σ : Type} {message : String} {summary : σ} {size : ℕ}

theorem checkPagination_ok {page size : ℕ} (h : page * size ≤ maxPageDepth) :
    checkPagination message page size = .ok () := by
  rw [checkPagination, if_neg (not_lt.mpr h)]

theorem checkPagination_error {page size : ℕ} (h : maxPageDepth < page * size) :
    checkPagination message page size = .error ⟨message, page, size, maxPageDepth⟩ := by
  rw [checkPagination, if_pos h]

/-- All pages lie within the depth if the rows fit its whole pages. -/
theorem enough_le_iff (hsize : 0 < size) (hdepth : size ≤ maxPageDepth) (total : ℕ) :
    enough total size ≤ maxPageDepth / size ↔ total ≤ maxPageDepth / size * size := by
  have hone : 1 ≤ maxPageDepth / size := (Nat.le_div_iff_mul_le hsize).mpr (by omega)
  have hpages : totalPages total size = (total + size - 1) / size := by
    rw [totalPages, if_neg (by omega)]
  have hlt : (total + size - 1) / size < maxPageDepth / size + 1 ↔
      total + size - 1 < (maxPageDepth / size + 1) * size := Nat.div_lt_iff_lt_mul hsize
  have hmul : (maxPageDepth / size + 1) * size = maxPageDepth / size * size + size :=
    Nat.succ_mul _ _
  rw [enough, hpages]
  constructor
  · intro h
    have hpages : (total + size - 1) / size < maxPageDepth / size + 1 := by omega
    have hrows := hlt.mp hpages
    omega
  · intro h
    have hrows : total + size - 1 < (maxPageDepth / size + 1) * size := by omega
    have hpages := hlt.mpr hrows
    omega

/-- The pages that are read hold all rows. -/
theorem le_enough_mul (hsize : 0 < size) (total : ℕ) : total ≤ enough total size * size := by
  have hpages : totalPages total size = (total + size - 1) / size := by
    rw [totalPages, if_neg (by omega)]
  have hdiv : (total + size - 1) / size * size + (total + size - 1) % size = total + size - 1 := by
    rw [Nat.mul_comm]
    exact Nat.div_add_mod _ _
  have hmod : (total + size - 1) % size < size := Nat.mod_lt _ hsize
  have hle : totalPages total size * size ≤ enough total size * size :=
    Nat.mul_le_mul_right size (le_max_right 1 _)
  rw [hpages] at hle
  omega

/-- The page that a service serves within the depth. -/
theorem serve_ok {fetch : ℕ → ℕ → ℕ → ListSummaries.Page α} {answers : ℕ → List α} {total : ℕ}
    (hsize : 0 < size)
    (hfetch : ∀ k, fetch k (k * size) size = ⟨total, slice size k (answers k)⟩) {k : ℕ}
    (hk : k < maxPageDepth / size) :
    (listPage message (fetch k) summary (k + 1) size).map
        (fun r => (⟨r.items, r.pagination.totalPages⟩ : OffsetPages.Page α)) =
      .ok ⟨slice size k (answers k), totalPages total size⟩ := by
  have hdepth : (k + 1) * size ≤ maxPageDepth := (Nat.le_div_iff_mul_le hsize).mp hk
  simp only [listPage, checkPagination_ok hdepth, Nat.add_sub_cancel, hfetch]
  rfl

/-- The first page that a service refuses. -/
theorem serve_error {fetch : ℕ → ℕ → ListSummaries.Page α} (hsize : 0 < size) :
    (listPage message fetch summary (maxPageDepth / size + 1) size).map
        (fun r => (⟨r.items, r.pagination.totalPages⟩ : OffsetPages.Page α)) =
      .error ⟨message, maxPageDepth / size + 1, size, maxPageDepth⟩ := by
  have hdepth : maxPageDepth < (maxPageDepth / size + 1) * size :=
    (Nat.div_lt_iff_lt_mul hsize).mp (Nat.lt_succ_self _)
  simp only [listPage, checkPagination_error hdepth]
  rfl

variable (message summary) in
/-- A list is read to its end or refused at the depth. -/
theorem readAll_eq (fetch : ℕ → ℕ → ℕ → ListSummaries.Page α) (answers : ℕ → List α) {total : ℕ}
    (hsize : 0 < size) (hdepth : size ≤ maxPageDepth)
    (hfetch : ∀ k, fetch k (k * size) size = ⟨total, slice size k (answers k)⟩) {fuel : ℕ}
    (hfuel : enough total size ≤ fuel) :
    readAll (fun page => listPage message (fetch (page - 1)) summary page size) fuel =
      some (if total ≤ maxPageDepth / size * size then .ok (read size (enough total size) answers)
        else .error ⟨message, maxPageDepth / size + 1, size, maxPageDepth⟩) := by
  split
  · next hrows =>
    exact follow_ok (fun k hk => serve_ok hsize hfetch hk)
      ((enough_le_iff hsize hdepth total).mpr hrows) hfuel
  · next hrows =>
    have hlimit : maxPageDepth / size < enough total size := by
      rw [← enough_le_iff hsize hdepth] at hrows
      omega
    exact follow_error (fun k hk => serve_ok hsize hfetch hk) (serve_error hsize) hlimit hfuel

end Depth

/-! ## The ledgers -/

/-- The order of a list: by a column, and rows that agree in it by descending identifiers. -/
def keyedBefore {α : Type} (ascending : Bool) (column : α → ℤ) (id : α → ℕ) (a b : α) : Bool :=
  if column a = column b then id b ≤ id a
  else if ascending then column a ≤ column b
  else column b ≤ column a

/-- A reader who asks for all pages gets the rows in their only order, or is
refused at the depth. -/
def ReadThrough {α σ : Type} (message : String)
    (serve : ℕ → Except PaginationTooDeepError (ListResponse α σ)) (before : α → α → Bool)
    (rows : List α) (size : ℕ) : Prop :=
  ∃ sorted, (∀ other, Answer (fun a b => before a b = true) rows other ↔ other = sorted) ∧
    ∀ fuel, enough rows.length size ≤ fuel → readAll serve fuel =
      some (if rows.length ≤ maxPageDepth / size * size then .ok sorted
        else .error ⟨message, maxPageDepth / size + 1, size, maxPageDepth⟩)

section Keyed

variable {α σ : Type} {ascending : Bool} {column : α → ℤ} {id : α → ℕ}

theorem keyedBefore_total (a b : α) :
    (keyedBefore ascending column id a b || keyedBefore ascending column id b a) = true := by
  rw [Bool.or_eq_true]
  unfold keyedBefore
  by_cases hcolumn : column a = column b
  · rw [if_pos hcolumn, if_pos hcolumn.symm, decide_eq_true_eq, decide_eq_true_eq]
    omega
  · have hcolumn' : column b ≠ column a := fun h => hcolumn h.symm
    rw [if_neg hcolumn, if_neg hcolumn']
    cases ascending <;> simp only [Bool.false_eq_true, if_false, if_true, decide_eq_true_eq] <;> omega

theorem keyedBefore_trans (a b c : α) (hab : keyedBefore ascending column id a b = true)
    (hbc : keyedBefore ascending column id b c = true) :
    keyedBefore ascending column id a c = true := by
  unfold keyedBefore at hab hbc ⊢
  cases ascending <;> simp only [Bool.false_eq_true, if_false, if_true] at hab hbc ⊢ <;>
    split_ifs at hab hbc ⊢ <;> simp only [decide_eq_true_eq] at hab hbc ⊢ <;> omega

/-- Rows with different identifiers are not tied. -/
theorem keyedBefore_antisymm {a b : α} (hab : keyedBefore ascending column id a b = true)
    (hba : keyedBefore ascending column id b a = true) : id a = id b := by
  unfold keyedBefore at hab hba
  cases ascending <;> simp only [Bool.false_eq_true, if_false, if_true] at hab hba <;>
    split_ifs at hab hba <;> simp only [decide_eq_true_eq] at hab hba <;> omega

/-- A list whose rows have different identifiers is read through. -/
theorem readThrough_page {message : String} {summary : σ} {rows : List α} {size : ℕ}
    (hid : (rows.map id).Nodup) (hsize : 0 < size) (hdepth : size ≤ maxPageDepth) :
    ReadThrough message (fun page => listPage message
      (ListSummaries.page rows ascending column id) summary page size)
      (keyedBefore ascending column id) rows size := by
  let sorted := rows.mergeSort (keyedBefore ascending column id)
  have hanswer : Answer (fun a b => keyedBefore ascending column id a b = true) rows sorted :=
    ⟨List.mergeSort_perm _ _, List.pairwise_mergeSort keyedBefore_trans keyedBefore_total rows⟩
  refine ⟨sorted, fun other => ⟨fun hother => ?_, fun h => h ▸ hanswer⟩, fun fuel hfuel => ?_⟩
  · refine hother.unique (fun a ha b hb hab hba => ?_) hanswer
    exact List.inj_on_of_nodup_map hid ha hb (keyedBefore_antisymm hab hba)
  · have hread := readAll_eq message summary (fun _ => ListSummaries.page rows ascending column id)
      (fun _ => sorted) hsize hdepth (fun _ => rfl) hfuel
    have hall : read size (enough rows.length size) (fun _ => sorted) = sorted := by
      rw [read_const]
      exact List.take_of_length_le (hanswer.length_eq.trans_le (le_enough_mul hsize rows.length))
    rw [hall] at hread
    exact hread

end Keyed

/-- The rows that a table's rows are joined to keep different keys. -/
theorem nodup_of_joins {K V β : Type} [DecidableEq K] (t : Table K V) (join : K × V → Option β)
    (key : β → K) (hkey : ∀ r b, join r = some b → key b = r.1) (p : β → Bool) :
    (((t.rows.filterMap join).filter p).map key).Nodup := by
  have hjoined : ((t.rows.filterMap join).map key).Sublist (t.rows.map Prod.fst) :=
    Aggregation.joined_sublist hkey t.rows
  exact (hjoined.nodup t.nodup).sublist (List.filter_sublist.map key)

theorem matchedTransactions_nodup (search : TextSearch) (s : Db) (f : TransactionFilter) :
    ((matchedTransactions search s f).map fun j => j.id).Nodup := by
  refine nodup_of_joins s.transactions _ JoinedTransaction.id (fun r j hj => ?_) _
  simp only [Option.bind_eq_bind, Option.bind_eq_some_iff, Option.pure_def, Option.some.injEq] at hj
  obtain ⟨_, _, _, _, _, _, _, _, rfl⟩ := hj
  rfl

theorem matchedMovements_nodup (search : TextSearch) (s : Db) (f : StockTransactionFilter) :
    ((matchedMovements search s f).map fun j => j.id).Nodup := by
  refine nodup_of_joins s.stockTransactions _ JoinedMovement.id (fun r j hj => ?_) _
  simp only [Option.bind_eq_bind, Option.bind_eq_some_iff, Option.pure_def, Option.some.injEq] at hj
  obtain ⟨_, _, _, _, _, _, _, _, rfl⟩ := hj
  rfl

/-- The ledgers are read through page by page, whatever the filter. -/
theorem ledgers_read_through (search : TextSearch) (s : Db) (f : TransactionFilter)
    (g : StockTransactionFilter) {size : ℕ} (hsize : 0 < size) (hdepth : size ≤ maxPageDepth) :
    ReadThrough financesTooDeep (fun page => getTransactions search s f page size)
        (keyedBefore f.ascending (fun j => j.row.createdAt) fun j => j.id)
        (matchedTransactions search s f) size ∧
      ReadThrough inventoryTooDeep (fun page => stockLedgerList search s g page size)
        (keyedBefore g.ascending
          (fun j => if g.sortByQuantity then j.row.quantity else j.row.createdAt) fun j => j.id)
        (matchedMovements search s g) size :=
  ⟨readThrough_page (matchedTransactions_nodup search s f) hsize hdepth,
    readThrough_page (matchedMovements_nodup search s g) hsize hdepth⟩

theorem ledgers_read_through_sample :
    ReadThrough financesTooDeep (fun page => getTransactions noSearch sampleDb {} page 1)
        (keyedBefore false (fun j => j.row.createdAt) fun j => j.id)
        (matchedTransactions noSearch sampleDb {}) 1 ∧
      ReadThrough inventoryTooDeep (fun page => stockLedgerList noSearch sampleDb {} page 1)
        (keyedBefore false (fun j => j.row.createdAt) fun j => j.id)
        (matchedMovements noSearch sampleDb {}) 1 :=
  ledgers_read_through noSearch sampleDb {} {} (by decide) (by decide)

/-! ## The accounts -/

section Accounts

variable (search : TextSearch) (s : Db) (f : AccountFilter)

theorem matchedAccounts_nodup (hkeys : (s.directory.accounts.map Account.id).Nodup) :
    (matchedAccounts search s f).Nodup := by
  have hjoined : ((accountJoins s).map JoinedAccount.account).Sublist s.directory.accounts := by
    have hrow : ∀ (a : Account) (j : JoinedAccount),
        (s.users.find? a.userId).map (fun u => ⟨a, balance s.accountBalances a.id, u⟩) = some j →
          j.account = a := by
      intro a j hj
      obtain ⟨u, -, rfl⟩ := Option.map_eq_some_iff.mp hj
      rfl
    have hsub := Aggregation.joined_sublist hrow s.directory.accounts
    rwa [List.map_id'] at hsub
  have hnodup : (accountJoins s).Nodup :=
    List.Nodup.of_map JoinedAccount.account (hjoined.nodup hkeys.of_map)
  exact hnodup.filter _

/-- The summary of accounts describes the rows of the list in any order. -/
theorem accountSummary_agrees {rows : List JoinedAccount}
    (hperm : rows.Perm (matchedAccounts search s f)) : (getAccountsSummary search s f).Agrees rows := by
  constructor
  · exact (hperm.map _).sum_eq.symm
  · intro type
    rw [getAccountsSummary, Bag.lookup_collect, (hperm.filter _).length_eq]
    induction matchedAccounts search s f with
    | nil => rfl
    | cons j rows ih =>
      rw [List.map_cons, Bag.amount_cons, ih]
      by_cases hj : j.account.type = type
      · rw [if_pos hj, List.filter_cons_of_pos (by simp [hj]), List.length_cons, Nat.add_comm]
      · rw [if_neg hj, List.filter_cons_of_neg (by simp [hj]), Nat.zero_add]

/-- A reader who asks for all pages of the accounts gets each account once, and
those the summary describes, for every order of accounts made at the same time,
exactly if the list is not too deep and no two such accounts are at the two
sides of a page's end. -/
theorem accounts_read_through_iff (hkeys : (s.directory.accounts.map Account.id).Nodup) {size : ℕ}
    (hsize : 0 < size) (hdepth : size ≤ maxPageDepth) {sorted : List JoinedAccount}
    (hsorted : Answer newestFirst (matchedAccounts search s f) sorted) :
    (∀ answers : ℕ → List JoinedAccount,
      (∀ k, Answer newestFirst (matchedAccounts search s f) (answers k)) →
      ∃ rows, (∀ fuel, enough (matchedAccounts search s f).length size ≤ fuel →
          readAll (fun page => getAccounts search s f (answers (page - 1)) page size) fuel =
            some (.ok rows)) ∧
        rows.Perm (matchedAccounts search s f) ∧ (getAccountsSummary search s f).Agrees rows) ↔
      (matchedAccounts search s f).length ≤ maxPageDepth / size * size ∧
        CutsClean newestFirst size sorted := by
  have hread : ∀ (answers : ℕ → List JoinedAccount) {fuel : ℕ},
      enough (matchedAccounts search s f).length size ≤ fuel →
      readAll (fun page => getAccounts search s f (answers (page - 1)) page size) fuel =
        some (if (matchedAccounts search s f).length ≤ maxPageDepth / size * size then
          .ok (read size (enough (matchedAccounts search s f).length size) answers)
        else .error ⟨financesTooDeep, maxPageDepth / size + 1, size, maxPageDepth⟩) :=
    fun answers fuel hfuel => readAll_eq financesTooDeep (getAccountsSummary search s f)
      (fun k => getAccountsWithFilters search s f (answers k)) answers hsize hdepth
      (fun _ => rfl) hfuel
  have hself : ∀ a : JoinedAccount, newestFirst a a := fun a => le_refl a.account.createdAt
  have htrans : ∀ a b c : JoinedAccount, newestFirst a b → newestFirst b c → newestFirst a c :=
    fun a b c hab hbc => le_trans (α := ℤ) hbc hab
  have hpages := read_perm_iff hsize hself htrans
    (matchedAccounts_nodup search s f hkeys) hsorted
    (le_enough_mul hsize (matchedAccounts search s f).length)
  rw [← hpages]
  constructor
  · intro hall
    have hfits : (matchedAccounts search s f).length ≤ maxPageDepth / size * size := by
      obtain ⟨rows, hrows, -⟩ := hall (fun _ => sorted) fun _ => hsorted
      have hrows := hrows _ (le_refl _)
      rw [hread (fun _ => sorted) (le_refl _)] at hrows
      by_contra hdeep
      rw [if_neg hdeep] at hrows
      cases hrows
    refine ⟨hfits, fun answers hanswers => ?_⟩
    obtain ⟨rows, hrows, hperm, -⟩ := hall answers hanswers
    have hrows := hrows _ (le_refl _)
    rw [hread answers (le_refl _), if_pos hfits] at hrows
    cases hrows
    exact hperm
  · rintro ⟨hfits, hperm⟩ answers hanswers
    refine ⟨_, fun fuel hfuel => ?_, hperm answers hanswers,
      accountSummary_agrees search s f (hperm answers hanswers)⟩
    rw [hread answers hfuel, if_pos hfits]

end Accounts

/-- Three accounts, two of them made at the same time. -/
def sampleAccounts : Db :=
  { ListSummaries.sampleDb with
    directory := ⟨[], [⟨1, 0, .revenue, true, 0, "revenue"⟩, ⟨2, 5, .client, true, 7, "client"⟩,
      ⟨3, 5, .client, true, 7, "second"⟩]⟩ }

theorem accounts_read_through_iff_sample :
    (sampleAccounts.directory.accounts.map Account.id).Nodup ∧
      Answer newestFirst (matchedAccounts noSearch sampleAccounts {})
        (matchedAccounts noSearch sampleAccounts {}).reverse ∧
      ((∀ answers : ℕ → List JoinedAccount,
        (∀ k, Answer newestFirst (matchedAccounts noSearch sampleAccounts {}) (answers k)) →
        ∃ rows, (∀ fuel, enough (matchedAccounts noSearch sampleAccounts {}).length 2 ≤ fuel →
            readAll (fun page => getAccounts noSearch sampleAccounts {} (answers (page - 1)) page 2)
              fuel = some (.ok rows)) ∧
          rows.Perm (matchedAccounts noSearch sampleAccounts {}) ∧
          (getAccountsSummary noSearch sampleAccounts {}).Agrees rows) ↔
        (matchedAccounts noSearch sampleAccounts {}).length ≤ maxPageDepth / 2 * 2 ∧
          CutsClean newestFirst 2 (matchedAccounts noSearch sampleAccounts {}).reverse) := by
  have hkeys : (sampleAccounts.directory.accounts.map Account.id).Nodup := by decide
  have hsorted : Answer newestFirst (matchedAccounts noSearch sampleAccounts {})
      (matchedAccounts noSearch sampleAccounts {}).reverse := by
    constructor
    · exact List.reverse_perm _
    · have hcreated : ((matchedAccounts noSearch sampleAccounts {}).reverse.map
          fun j => j.account.createdAt) = [7, 7, 0] := by decide
      have hpairs : List.Pairwise (fun a b : ℤ => b ≤ a) [7, 7, 0] := by decide
      rw [← hcreated, List.pairwise_map] at hpairs
      exact hpairs
  exact ⟨hkeys, hsorted, accounts_read_through_iff noSearch sampleAccounts {} hkeys (by decide)
    (by decide) hsorted⟩

end Munavvar.PagedLists
