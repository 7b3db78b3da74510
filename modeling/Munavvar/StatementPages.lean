import Munavvar.AccountStatements
import Munavvar.StableSort

/-!
# Pages of a statement

The loop of a statement starts a page at the balance before the period and
adds up the rows of the page alone. So a page belongs to the whole statement
only if it holds every row of the period.
-/

namespace Munavvar.StatementPages

open Munavvar.KeyedTable
open Munavvar.Database
open Munavvar.OrderService (dayLength)
open Munavvar.Operations
open Munavvar.AccountStatements
open Munavvar.StableSort

/-- `skip = (page - 1) * size` and `limit = size`. -/
def ofPage (q : StatementQuery) (page size : ℕ) : StatementQuery :=
  { q with skip := (page - 1) * size, limit := size }

/-- The query for the unpaged statement. -/
def whole (s : Db) (q : StatementQuery) : StatementQuery :=
  { q with skip := 0, limit := s.transactions.rows.length }

/-- A statement lists a slice of the entries of another one and repeats its balances. -/
structure IsPage (skip limit : ℕ) (page full : AccountStatement) : Prop where
  /-- The entries with their running balances. -/
  entries : page.transactions = (full.transactions.drop skip).take limit
  /-- The balance before the period. -/
  opening : page.period.openingBalance = full.period.openingBalance
  /-- The balance after it. -/
  closing : page.period.closingBalance = full.period.closingBalance
  /-- The incoming amounts of the period. -/
  incoming : page.period.totalIncoming = full.period.totalIncoming
  /-- The outgoing amounts of the period. -/
  outgoing : page.period.totalOutgoing = full.period.totalOutgoing

/-- A query answers with a page of the unpaged statement. -/
def Pages (scan scan' : List LedgerRow → List LedgerRow) (process : ℤ) (s : Db) (a : Uuid)
    (q : StatementQuery) : Prop :=
  ∃ page full, getAccountStatement scan process s a q = .ok page ∧
    getAccountStatement scan' process s a (whole s q) = .ok full ∧
    IsPage q.skip q.limit page full

/-- The rows of the period that a query asks for. -/
def period (process : ℤ) (a : Uuid) (q : StatementQuery) (rows : List LedgerRow) : List LedgerRow :=
  rows.filter fun r => isInPeriod a (q.dtFrom.instant process) (q.dtTo.instant process) r.2

/-- A page that leaves out no row of the period. -/
def Complete (process : ℤ) (s : Db) (a : Uuid) (q : StatementQuery) : Prop :=
  period process a q s.transactions.rows = [] ∨
    q.skip = 0 ∧ (period process a q s.transactions.rows).length ≤ q.limit

/-- Two scans list the transactions of the period that were inserted at one
time in the same order. -/
def SameTies (scan scan' : List LedgerRow → List LedgerRow) (process : ℤ) (s : Db) (a : Uuid)
    (q : StatementQuery) : Prop :=
  ∀ t, run (fun r => r.2.createdAt) t (period process a q (scan s.transactions.rows)) =
    run (fun r => r.2.createdAt) t (period process a q (scan' s.transactions.rows))

/-! ## The loop over a page -/

/-- The loop adds each amount to one of the totals. -/
theorem foldl_add_totals (d : Directory) (a : Uuid) (rows : List LedgerRow) (st : Running) :
    (rows.foldl (Running.add d a) st).incoming + (rows.foldl (Running.add d a) st).outgoing =
      st.incoming + st.outgoing + (rows.map fun r => r.2.amount).sum := by
  induction rows generalizing st with
  | nil => simp
  | cons r rows ih =>
    have hstep : (Running.add d a st r).incoming + (Running.add d a st r).outgoing =
        st.incoming + st.outgoing + r.2.amount := by
      unfold Running.add
      dsimp only
      split <;> omega
    rw [List.foldl_cons, ih, List.map_cons, List.sum_cons]
    omega

/-- A slice that keeps the sum of positive amounts keeps all of them. -/
theorem eq_of_sum_eq {rows rows' : List LedgerRow} (hsub : rows.Sublist rows')
    (hpositive : ∀ r ∈ rows', 0 < r.2.amount)
    (hsum : (rows.map fun r => r.2.amount).sum = (rows'.map fun r => r.2.amount).sum) :
    rows = rows' := by
  have hle : ∀ {l l' : List LedgerRow}, l.Sublist l' → (∀ r ∈ l', 0 < r.2.amount) →
      (l.map fun r => r.2.amount).sum + (l'.length - l.length) ≤
        (l'.map fun r => r.2.amount).sum := by
    intro l l' h
    induction h with
    | slnil => simp
    | @cons l l' r h ih =>
      intro hpos
      have hrest := ih fun r' hr' => hpos r' (List.mem_cons_of_mem r hr')
      have hr := hpos r List.mem_cons_self
      rw [List.map_cons, List.sum_cons, List.length_cons]
      push_cast
      omega
    | @cons_cons l l' r h ih =>
      intro hpos
      have hrest := ih fun r' hr' => hpos r' (List.mem_cons_of_mem r hr')
      rw [List.map_cons, List.sum_cons, List.map_cons, List.sum_cons, List.length_cons,
        List.length_cons]
      push_cast
      omega
  have hlength := hle hsub hpositive
  have hshort := hsub.length_le
  exact hsub.eq_of_length (by omega)

section Pages

variable {scan scan' : List LedgerRow → List LedgerRow} {process : ℤ} {s : Db} {a : Uuid}
  {q : StatementQuery}

/-- The rows of the period in the order of their times. -/
def sorted (scan : List LedgerRow → List LedgerRow) (process : ℤ) (s : Db) (a : Uuid)
    (q : StatementQuery) : List LedgerRow :=
  (period process a q (scan s.transactions.rows)).mergeSort (before fun r => r.2.createdAt)

/-- The statement of an account that lists some rows. -/
def statementOf (process : ℤ) (s : Db) (account : Account) (q : StatementQuery)
    (rows : List LedgerRow) : AccountStatement :=
  let before := getOpeningBalanceData s account.id (q.dtFrom.instant process)
  let st := rows.foldl (Running.add s.directory account.id) ⟨before.1 - before.2, 0, 0, []⟩
  { account := accountShort account
    period := ⟨q.dtFrom.date, q.dtTo.date, before.1 - before.2, st.balance, st.incoming, st.outgoing⟩
    transactions := st.entries }

/-- The totals of a statement are the amounts on it. -/
theorem totals_statementOf (process : ℤ) (s : Db) (q : StatementQuery) (account : Account) (rows : List LedgerRow) :
    (statementOf process s account q rows).period.totalIncoming +
      (statementOf process s account q rows).period.totalOutgoing =
      (rows.map fun r => r.2.amount).sum := by
  have htotal := foldl_add_totals s.directory account.id rows
    ⟨(getOpeningBalanceData s account.id (q.dtFrom.instant process)).1 -
      (getOpeningBalanceData s account.id (q.dtFrom.instant process)).2, 0, 0, []⟩
  dsimp only at htotal
  rw [Int.zero_add, Int.zero_add] at htotal
  exact htotal

/-- The entries of a statement are the rows on it. -/
theorem ids_statementOf (process : ℤ) (s : Db) (q : StatementQuery) (account : Account) (rows : List LedgerRow) :
    (statementOf process s account q rows).transactions.map StatementEntry.id =
      rows.map Prod.fst :=
  (foldl_add s.directory account.id rows
    ⟨(getOpeningBalanceData s account.id (q.dtFrom.instant process)).1 -
      (getOpeningBalanceData s account.id (q.dtFrom.instant process)).2, 0, 0, []⟩).2

/-- A statement lists a slice of the sorted rows of the period. -/
theorem getAccountStatement_eq {account : Account} (hfound : s.directory.account? a = some account)
    (hid : account.id = a) (hactive : account.isActive = true) (q : StatementQuery) :
    getAccountStatement scan process s a q =
      .ok (statementOf process s account q (((sorted scan process s a q).drop q.skip).take q.limit)) := by
  subst hid
  unfold getAccountStatement
  rw [hfound, Option.filter_some, if_pos hactive]
  rfl

/-- The unpaged statement lists every row. -/
theorem take_whole (hscan : ∀ rows, (scan rows).Perm rows) :
    ((sorted scan process s a q).drop (whole s q).skip).take (whole s q).limit =
      sorted scan process s a q := by
  have hsorted := (List.mergeSort_perm (period process a q (scan s.transactions.rows))
    (before fun r => r.2.createdAt)).length_eq
  have hperiod := List.length_filter_le (fun r : LedgerRow =>
    isInPeriod a (q.dtFrom.instant process) (q.dtTo.instant process) r.2) (scan s.transactions.rows)
  have hrows := (hscan s.transactions.rows).length_eq
  rw [whole, List.drop_zero]
  apply List.take_of_length_le
  exact (hsorted.le.trans hperiod).trans hrows.le

/-- The sorted rows are those of the period. -/
theorem sorted_perm (hscan : ∀ rows, (scan rows).Perm rows) :
    (sorted scan process s a q).Perm (period process a q s.transactions.rows) :=
  (List.mergeSort_perm _ _).trans ((hscan s.transactions.rows).filter _)

/-- Stored rows are told by their keys. -/
theorem rows_of_keys {rows : List LedgerRow} (h : ∀ r ∈ rows, r ∈ s.transactions.rows) :
    rows = (rows.map Prod.fst).filterMap fun id =>
      (s.transactions.find? id).map fun row => (id, row) := by
  induction rows with
  | nil => rfl
  | cons r rows ih =>
    have hr := (Table.mem_rows_iff _ _ _).mp (h r List.mem_cons_self)
    have hrest := ih fun r' hr' => h r' (List.mem_cons_of_mem r hr')
    rw [List.map_cons, List.filterMap_cons, hr, Option.map_some]
    exact congrArg (r :: ·) hrest

/-- A slice that keeps all of a list starts with the first entry and reaches to the last one. -/
theorem slice_eq_self_iff {α : Type} (l : List α) (skip limit : ℕ) :
    (l.drop skip).take limit = l ↔ l = [] ∨ skip = 0 ∧ l.length ≤ limit := by
  constructor
  · intro h
    have hlength := congrArg List.length h
    rw [List.length_take, List.length_drop] at hlength
    by_cases hl : l.length = 0
    · left
      exact List.length_eq_zero_iff.mp hl
    · right
      omega
  · rintro (rfl | ⟨rfl, hlimit⟩)
    · rw [List.drop_nil, List.take_nil]
    · rw [List.drop_zero, List.take_of_length_le hlimit]

/-- The slices of lists of one length leave out as many entries. -/
theorem slice_eq_self_of_length {α β : Type} {l : List α} {l' : List β} {skip limit : ℕ}
    (hlength : l.length = l'.length) (h : (l.drop skip).take limit = l) :
    (l'.drop skip).take limit = l' := by
  rw [slice_eq_self_iff] at h ⊢
  rw [← List.length_eq_zero_iff] at h ⊢
  omega

/-- Whether a page leaves out a row can be told from the sorted rows. -/
theorem complete_iff (hscan : ∀ rows, (scan rows).Perm rows) : Complete process s a q ↔
    ((sorted scan process s a q).drop q.skip).take q.limit = sorted scan process s a q := by
  have hperm : (sorted scan process s a q).Perm _ := sorted_perm hscan
  rw [slice_eq_self_iff, hperm.length_eq, Complete, ← List.length_eq_zero_iff,
    ← List.length_eq_zero_iff, hperm.length_eq]

/-- The orders of the sorted rows agree exactly if those of simultaneous rows do. -/
theorem sorted_eq_iff : sorted scan process s a q = sorted scan' process s a q ↔
    SameTies scan scan' process s a q :=
  mergeSort_eq_iff _ _

/-- Statements with the same totals list all of the same rows. -/
theorem slice_of_totals {rows rows' : List LedgerRow} {account : Account}
    (hpositive : ∀ r ∈ rows, 0 < r.2.amount) (hperm : rows.Perm rows') {skip limit : ℕ}
    (hincoming : (statementOf process s account q ((rows.drop skip).take limit)).period.totalIncoming =
      (statementOf process s account q rows').period.totalIncoming)
    (houtgoing : (statementOf process s account q ((rows.drop skip).take limit)).period.totalOutgoing =
      (statementOf process s account q rows').period.totalOutgoing) :
    (rows.drop skip).take limit = rows := by
  have hsub := (List.take_sublist limit (rows.drop skip)).trans (List.drop_sublist skip rows)
  have hpage : _ = (((rows.drop skip).take limit).map fun r => r.2.amount).sum :=
    totals_statementOf process s q account _
  have hfull : _ = (rows'.map fun r => r.2.amount).sum :=
    totals_statementOf process s q account _
  have hsum := (hperm.map fun r => r.2.amount).sum_eq
  apply eq_of_sum_eq hsub hpositive
  omega

section Iff

variable (hscan : ∀ rows, (scan rows).Perm rows) (hscan' : ∀ rows, (scan' rows).Perm rows)
  (hpositive : ∀ r ∈ s.transactions.rows, 0 < r.2.amount)
  (haccount : (s.directory.account? a).any Account.isActive = true)

include haccount hscan' in
/-- Both statements of an active account list sorted rows of the period. -/
theorem pages_iff_isPage : ∃ account, Pages scan scan' process s a q ↔ IsPage q.skip q.limit
    (statementOf process s account q (((sorted scan process s a q).drop q.skip).take q.limit))
    (statementOf process s account q (sorted scan' process s a q)) := by
  obtain ⟨account, hfound, hactive⟩ := (Option.any_eq_true _ _).mp haccount
  have hid : account.id = a := by
    have hkey := List.find?_some hfound
    exact of_decide_eq_true hkey
  have hpage : getAccountStatement scan process s a q = _ :=
    getAccountStatement_eq hfound hid hactive q
  have hfull : getAccountStatement scan' process s a (whole s q) = .ok (statementOf process s account q
      (((sorted scan' process s a q).drop (whole s q).skip).take (whole s q).limit)) :=
    getAccountStatement_eq hfound hid hactive (whole s q)
  rw [take_whole hscan'] at hfull
  refine ⟨account, ?_⟩
  constructor
  · rintro ⟨page, full, hok, hok', his⟩
    rw [hpage] at hok
    rw [hfull] at hok'
    cases hok
    cases hok'
    exact his
  · intro his
    exact ⟨_, _, hpage, hfull, his⟩

include hscan hscan' hpositive in
/-- A page that repeats the totals leaves out no row. -/
theorem slice_of_isPage {account : Account} (his : IsPage q.skip q.limit
    (statementOf process s account q (((sorted scan process s a q).drop q.skip).take q.limit))
    (statementOf process s account q (sorted scan' process s a q))) :
    ((sorted scan process s a q).drop q.skip).take q.limit = sorted scan process s a q := by
  have hperm : (sorted scan process s a q).Perm _ := sorted_perm hscan
  have hperm' : (sorted scan' process s a q).Perm _ := sorted_perm hscan'
  apply slice_of_totals _ (hperm.trans hperm'.symm) his.incoming his.outgoing
  intro r hr
  exact hpositive r (List.mem_filter.mp (hperm.mem_iff.mp hr)).1

include hscan hscan' hpositive haccount in
/-- A query that answers with a page of the unpaged statement asks for all of it. -/
theorem complete_of_pages (h : Pages scan scan' process s a q) : Complete process s a q := by
  have hiff : ∃ account, Pages scan scan' process s a q ↔ _ := pages_iff_isPage hscan' haccount
  rw [complete_iff hscan]
  obtain ⟨account, hiff⟩ := hiff
  exact slice_of_isPage hscan hscan' hpositive (hiff.mp h)

/-- A query answers with a page of the unpaged statement exactly if it asks for
every row of the period and rows of one time come in the same order again. -/
theorem pages_iff (hscan : ∀ rows, (scan rows).Perm rows) (hscan' : ∀ rows, (scan' rows).Perm rows)
    (hpositive : ∀ r ∈ s.transactions.rows, 0 < r.2.amount)
    (haccount : (s.directory.account? a).any Account.isActive = true) :
    Pages scan scan' process s a q ↔
      Complete process s a q ∧ SameTies scan scan' process s a q := by
  have hperm : (sorted scan process s a q).Perm _ := sorted_perm hscan
  have hperm' : (sorted scan' process s a q).Perm _ := sorted_perm hscan'
  have hiff : ∃ account, Pages scan scan' process s a q ↔ _ := pages_iff_isPage hscan' haccount
  obtain ⟨account, hiff⟩ := hiff
  rw [hiff, ← sorted_eq_iff, complete_iff hscan]
  constructor
  · intro his
    have hslice := slice_of_isPage hscan hscan' hpositive his
    constructor
    · exact hslice
    · have hids := congrArg (List.map StatementEntry.id) his.entries
      rw [hslice, List.map_take, List.map_drop, ids_statementOf, ids_statementOf] at hids
      have hkeys : ((sorted scan process s a q).map Prod.fst).length =
          ((sorted scan' process s a q).map Prod.fst).length := by
        rw [List.length_map, List.length_map, (hperm.trans hperm'.symm).length_eq]
      have hslice' : ((((sorted scan process s a q).map Prod.fst).drop q.skip).take q.limit) = _ :=
        slice_eq_self_of_length (List.length_map _).symm hslice
      rw [slice_eq_self_of_length hkeys hslice'] at hids
      -- Entries carry the keys of their rows, and those tell the rows themselves.
      rw [rows_of_keys fun r hr => (List.mem_filter.mp (hperm.mem_iff.mp hr)).1, hids,
        ← rows_of_keys fun r hr => (List.mem_filter.mp (hperm'.mem_iff.mp hr)).1]
  · rintro ⟨hcomplete, hties⟩
    rw [hcomplete, hties]
    rw [hties] at hcomplete
    constructor
    · have hids := congrArg List.length
        (ids_statementOf process s q account (sorted scan' process s a q))
      rw [List.length_map, List.length_map] at hids
      exact (slice_eq_self_of_length hids.symm hcomplete).symm
    · rfl
    · rfl
    · rfl
    · rfl

end Iff

end Pages

/-! ## A second page -/

/-- The office pays by card twice. -/
def paidTwice : Db :=
  { sampleDb with
    transactions := ⟨[(90, ⟨15, 13, none, none, 700, .completed, "card", 5, true⟩),
      (91, ⟨15, 13, none, none, 200, .completed, "card", 9, true⟩)], by decide⟩ }

theorem pages_iff_sample :
    Pages id id 0 paidTwice 15 (ofPage (onDay 0) 1 2) ↔
      Complete 0 paidTwice 15 (ofPage (onDay 0) 1 2) ∧
        SameTies id id 0 paidTwice 15 (ofPage (onDay 0) 1 2) :=
  pages_iff (fun rows => List.Perm.refl rows) (fun rows => List.Perm.refl rows) (by decide)
    (by decide)

/-- The second page starts again at the balance before the period. -/
theorem page_restarts_balance :
    ¬ ∀ (scan : List LedgerRow → List LedgerRow) (process : ℤ) (s : Db) (a : Uuid)
      (q : StatementQuery) (page size : ℕ), (∀ rows, (scan rows).Perm rows) →
      (∀ r ∈ s.transactions.rows, 0 < r.2.amount) →
      (s.directory.account? a).any Account.isActive = true → 1 ≤ page → 1 ≤ size → size ≤ 100 →
      Pages scan scan process s a (ofPage q page size) := by
  intro hclaim
  have hpages := hclaim id 0 paidTwice 15 (onDay 0) 2 1 (fun rows => List.Perm.refl rows) (by decide)
    (by decide) (by omega) (by omega) (by omega)
  have hcomplete := complete_of_pages (fun rows => List.Perm.refl rows)
    (fun rows => List.Perm.refl rows) (by decide) (by decide) hpages
  rw [Complete] at hcomplete
  revert hcomplete
  decide +kernel

end Munavvar.StatementPages
