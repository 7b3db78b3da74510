import Mathlib.Algebra.BigOperators.Group.Finset.Piecewise
import Munavvar.KeyedTable

/-!
# Double entry bookkeeping

A journal keeps entries that move an amount from one account to another; the
books keep a balance for each account beside it. The books agree with the
journal when every balance is what the journal nets to. One law covers
inserting, changing and deleting a journal row: the balances have to move by
the difference of the two rows' effects. A complete entry leaves the sum of
all balances unchanged.
-/

namespace Munavvar.DoubleEntry

open Munavvar.KeyedTable

variable {A I T M : Type}

/-- An amount that moves from one account to another. -/
structure Entry (A M : Type) where
  /-- The account that gives. -/
  source : A
  /-- The account that takes. -/
  target : A
  /-- What moves. -/
  amount : M

section Books

variable [DecidableEq A] [AddCommGroup M]

/-- What an entry does to one account. -/
def Entry.effect (e : Entry A M) (a : A) : M :=
  (if a = e.target then e.amount else 0) - (if a = e.source then e.amount else 0)

/-- The entry that takes an entry back. -/
def Entry.reversed (e : Entry A M) : Entry A M := ⟨e.source, e.target, -e.amount⟩

theorem Entry.effect_reversed (e : Entry A M) (a : A) : e.reversed.effect a = -e.effect a := by
  unfold effect reversed
  split <;> split <;> simp

/-- The balance of an account; an account without a row has none. -/
def balance (books : Table A M) (a : A) : M := (books.find? a).getD 0

/-- Move one balance. -/
def add (books : Table A M) (a : A) (delta : M) : Table A M :=
  books.put a (some (balance books a + delta))

/-- Enter an entry into the books: debit the source, credit the target. -/
def post (books : Table A M) (e : Entry A M) : Table A M :=
  add (add books e.source (-e.amount)) e.target e.amount

theorem balance_add (books : Table A M) (a : A) (delta : M) (b : A) :
    balance (add books a delta) b = balance books b + if b = a then delta else 0 := by
  rw [balance, add, Table.find?_put]
  by_cases h : b = a
  · rw [if_pos h, if_pos h, h, Option.getD_some]
  · rw [if_neg h, if_neg h, add_zero, balance]

theorem balance_post (books : Table A M) (e : Entry A M) (a : A) :
    balance (post books e) a = balance books a + e.effect a := by
  rw [post, balance_add, balance_add, Entry.effect]
  by_cases hs : a = e.source
  · rw [if_pos hs, if_pos hs]
    abel
  · rw [if_neg hs, if_neg hs]
    abel

/-- Crediting the target first makes no difference to the balances. -/
theorem balance_credit_debit (books : Table A M) (e : Entry A M) (a : A) :
    balance (add (add books e.target e.amount) e.source (-e.amount)) a =
      balance books a + e.effect a := by
  rw [← balance_post, post, balance_add, balance_add, balance_add, balance_add]
  abel

/-- The sum of the balances of a group of accounts. -/
def groupTotal (books : Table A M) (group : A → Bool) : M :=
  books.total fun a m => if group a then m else 0

theorem groupTotal_add (books : Table A M) (group : A → Bool) (a : A) (delta : M) :
    groupTotal (add books a delta) group =
      groupTotal books group + if group a then delta else 0 := by
  rw [groupTotal, add, Table.total_put, balance]
  cases books.find? a with
  | none =>
    simp only [Option.elim_none, Option.elim_some, Option.getD_none, groupTotal]
    abel_nf
  | some m =>
    simp only [Option.elim_some, Option.getD_some, groupTotal]
    split <;> abel

/-- An entry between two accounts of a group, or outside it, keeps the group's total. -/
theorem groupTotal_post (books : Table A M) (group : A → Bool) (e : Entry A M)
    (hgroup : group e.source = group e.target) :
    groupTotal (post books e) group = groupTotal books group := by
  rw [post, groupTotal_add, groupTotal_add, hgroup]
  split <;> abel

theorem groupTotal_credit_debit (books : Table A M) (group : A → Bool) (e : Entry A M)
    (hgroup : group e.source = group e.target) :
    groupTotal (add (add books e.target e.amount) e.source (-e.amount)) group =
      groupTotal books group := by
  rw [groupTotal_add, groupTotal_add, hgroup]
  split <;> abel

end Books

section Journal

variable [DecidableEq A] [DecidableEq I] [AddCommGroup M]

/-- What a journal row does to one account; a row that is not in force does nothing. -/
def rowEffect (entryOf : T → Option (Entry A M)) (row : Option T) (a : A) : M :=
  (row.bind entryOf).elim 0 fun e => e.effect a

@[simp] theorem rowEffect_none (entryOf : T → Option (Entry A M)) (a : A) :
    rowEffect entryOf none a = 0 := rfl

/-- What a journal nets to for one account. -/
def net (entryOf : T → Option (Entry A M)) (journal : Table I T) (a : A) : M :=
  journal.total fun _ row => rowEffect entryOf (some row) a

/-- Writing one row moves the net by the difference of the two rows' effects. -/
theorem net_put (entryOf : T → Option (Entry A M)) (journal : Table I T) (i : I) (row : Option T)
    (a : A) :
    net entryOf (journal.put i row) a =
      net entryOf journal a - rowEffect entryOf (journal.find? i) a + rowEffect entryOf row a := by
  rw [net, Table.total_put, net]
  cases journal.find? i <;> cases row <;> rfl

end Journal

section Sums

variable [DecidableEq A] [AddCommGroup M]

/-- Sums over accounts and over rows may be exchanged. -/
theorem sum_total {A M : Type} [AddCommMonoid M] (group : Finset A) (journal : Table I T) (g : A → I → T → M) :
    ∑ a ∈ group, journal.total (g a) = journal.total fun i row => ∑ a ∈ group, g a i row := by
  unfold Table.total
  induction journal.rows with
  | nil => simp only [List.map_nil, List.sum_nil, Finset.sum_const_zero]
  | cons r rows ih => simp only [List.map_cons, List.sum_cons, Finset.sum_add_distrib, ih]

/-- What an entry adds to a group of accounts. -/
theorem Entry.sum_effect (e : Entry A M) (group : Finset A) : ∑ a ∈ group, e.effect a =
    (if e.target ∈ group then e.amount else 0) - (if e.source ∈ group then e.amount else 0) := by
  unfold effect
  rw [Finset.sum_sub_distrib, Finset.sum_ite_eq', Finset.sum_ite_eq']

theorem balance_eq_total (books : Table A M) (a : A) :
    balance books a = books.total fun b m => if b = a then m else 0 := by
  have hput := Table.total_put books a none fun b m => if b = a then m else 0
  have hnone : ((books.put a none).total fun b m => if b = a then m else 0) = 0 := by
    rw [Table.total_congr (h := fun _ _ => 0)]
    · unfold Table.total
      simp only [List.map_const', List.sum_replicate, nsmul_zero]
    · intro b m hb
      rw [Table.find?_put] at hb
      split at hb
      · cases hb
      · next hne => exact if_neg hne
  rw [hnone, Option.elim_none, add_zero] at hput
  unfold balance
  cases hfound : books.find? a with
  | none =>
    rw [hfound, Option.elim_none, sub_zero] at hput
    exact hput
  | some m =>
    rw [hfound, Option.elim_some, if_pos rfl] at hput
    exact (sub_eq_zero.mp hput.symm).symm

/-- The sum of the balances of a group of accounts, row by row. -/
theorem sum_balance (books : Table A M) (group : Finset A) :
    ∑ a ∈ group, balance books a = books.total fun a m => if a ∈ group then m else 0 := by
  simp only [balance_eq_total]
  rw [sum_total]
  apply Table.total_congr
  intro b m _
  rw [Finset.sum_ite_eq]

/-- What a journal row adds to a group of accounts. -/
def groupEffect (entryOf : T → Option (Entry A M)) (group : A → Bool) (row : T) : M :=
  (entryOf row).elim 0 fun e =>
    (if group e.target then e.amount else 0) - if group e.source then e.amount else 0

/-- When the books agree with the journal, the balances of a group of accounts
add up to what the journal moved into the group less what it moved out of it. -/
theorem groupTotal_eq_total [DecidableEq I] {books : Table A M} {journal : Table I T}
    {entryOf : T → Option (Entry A M)} (hnet : ∀ a, balance books a = net entryOf journal a)
    (group : A → Bool) :
    groupTotal books group = journal.total fun _ row => groupEffect entryOf group row := by
  -- the accounts of the group that either the books or the journal know
  let ends : T → List A := fun row => (entryOf row).elim [] fun e => [e.target, e.source]
  let known : List A := books.keys ++ journal.rows.flatMap fun r => ends r.2
  let K : Finset A := known.toFinset.filter fun a => group a = true
  have hbook : ∀ a m, books.find? a = some m → (a ∈ K ↔ group a = true) := by
    intro a m ha
    have hkey : a ∈ books.keys := List.mem_map.mpr ⟨(a, m), (books.mem_rows_iff a m).mpr ha, rfl⟩
    rw [Finset.mem_filter, List.mem_toFinset]
    exact and_iff_right (List.mem_append_left _ hkey)
  have hend : ∀ i row, journal.find? i = some row → ∀ a ∈ ends row, (a ∈ K ↔ group a = true) := by
    intro i row hrow a ha
    have hmem : a ∈ journal.rows.flatMap fun r => ends r.2 :=
      List.mem_flatMap.mpr ⟨(i, row), (journal.mem_rows_iff i row).mpr hrow, ha⟩
    rw [Finset.mem_filter, List.mem_toFinset]
    exact and_iff_right (List.mem_append_right _ hmem)
  have hgroup : groupTotal books group = ∑ a ∈ K, balance books a := by
    rw [sum_balance]
    refine Table.total_congr fun a m ha => ?_
    exact if_congr (hbook a m ha).symm rfl rfl
  rw [hgroup, Finset.sum_congr rfl fun a _ => hnet a]
  unfold net
  rw [sum_total]
  refine Table.total_congr fun i row hrow => ?_
  have hend := hend i row hrow
  unfold rowEffect groupEffect
  rw [Option.bind_some]
  cases hentry : entryOf row with
  | none => simp only [Option.elim_none, Finset.sum_const_zero]
  | some e =>
    have hends : ends row = [e.target, e.source] := by
      change (entryOf row).elim [] _ = _
      rw [hentry, Option.elim_some]
    rw [hends] at hend
    have htarget := hend e.target List.mem_cons_self
    have hsource := hend e.source (List.mem_cons_of_mem _ List.mem_cons_self)
    simp only [Option.elim_some]
    rw [Entry.sum_effect, if_congr htarget rfl rfl, if_congr hsource rfl rfl]

end Sums

end Munavvar.DoubleEntry
