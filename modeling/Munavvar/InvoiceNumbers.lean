import Munavvar.StoppedContracts

/-!
# Invoice numbers

An invoice is numbered with its contract's number, the month in which its period
begins and how many invoices the contract has by then. The contract is locked
while its invoices are counted, so whatever runs concurrently, the invoices of a
contract are counted up and no two of them get the same number. A number is
longer than that of the contract, for which all of the column may be used, so
there is room for it only if the contract's number is short enough.
-/

namespace Munavvar.InvoiceNumbers

open Munavvar.KeyedTable
open Munavvar.Transaction
open Munavvar.Transaction.Prog
open Munavvar.ReadCommitted
open Munavvar.Database
open Munavvar.StockLedger
open Munavvar.ContractService
open Munavvar.Operations
open Munavvar.OrderChanges
open Munavvar.OrderQueries (scalarOneOrNone)
open Munavvar.Discipline
open Munavvar.Interference
open Munavvar.ContractLocks
open Munavvar.OperationLocks
open Munavvar.StoppedContracts (Commits commits_of_exec)

/-! ## The text of a number -/

/-- A number is padded up to a width that longer numbers exceed. -/
theorem length_padded (w : ℕ) (n : ℤ) : (padded w n).length = max w (toString n).length := by
  unfold padded
  simp only [String.length_append, String.length_ofList, List.length_replicate]
  omega

theorem toList_padded (w n : ℕ) :
    (padded w n).toList = List.replicate (w - (toString n).length) '0' ++ Nat.toDigits 10 n := by
  have htext : toString (n : ℤ) = toString n := rfl
  rw [padded, String.toList_append, String.toList_ofList, htext]
  rw [Nat.toString_eq_ofList_toDigits, String.toList_ofList]

/-- The digits after the zeros tell the number. -/
theorem padded_injective {w m n : ℕ} (h : (padded w m).toList = (padded w n).toList) : m = n := by
  have hread : ∀ k : ℕ, Nat.ofDigitChars 10 (padded w k).toList 0 = k := by
    intro k
    rw [toList_padded, Nat.ofDigitChars_append, Nat.ofDigitChars_replicate_zero, Nat.mul_zero]
    exact Nat.ofDigitChars_ten_toDigits
  calc
    m = Nat.ofDigitChars 10 (padded w m).toList 0 := (hread m).symm
    _ = Nat.ofDigitChars 10 (padded w n).toList 0 := by rw [h]
    _ = n := hread n

theorem not_mem_padded (w n : ℕ) : '-' ∉ (padded w n).toList := by
  rw [toList_padded, List.mem_append]
  rintro (hzero | hdigit)
  · have heq := List.eq_of_mem_replicate hzero
    exact absurd heq (by decide)
  · have hisDigit := Nat.isDigit_of_mem_toDigits (by decide) (by decide) hdigit
    exact absurd hisDigit (by decide)

/-- What stands after the last separator is determined. -/
theorem eq_of_last_field {c : Char} {l l' d d' : List Char} (hd : c ∉ d) (hd' : c ∉ d')
    (h : l ++ c :: d = l' ++ c :: d') : d = d' := by
  rcases List.append_eq_append_iff.mp h with ⟨m, -, hm⟩ | ⟨m, -, hm⟩
  · cases m with
    | nil => exact (List.cons.inj hm).2
    | cons x m =>
      have hrest := (List.cons.inj hm).2
      exact absurd (hrest ▸ List.mem_append_right m List.mem_cons_self) hd
  · cases m with
    | nil => exact (List.cons.inj hm).2.symm
    | cons x m =>
      have hrest := (List.cons.inj hm).2
      exact absurd (hrest ▸ List.mem_append_right m List.mem_cons_self) hd'

theorem invoiceNumber_eq (number : String) (periodFrom : ℤ) (n : ℕ) :
    invoiceNumber number periodFrom n =
      number ++ "/" ++ toString (yearMonth periodFrom).1 ++ "-" ++
        padded 2 (yearMonth periodFrom).2 ++ "-" ++ padded 3 n := rfl

theorem toList_invoiceNumber (number : String) (periodFrom : ℤ) (n : ℕ) :
    ∃ l, (invoiceNumber number periodFrom n).toList = l ++ '-' :: (padded 3 n).toList := by
  refine ⟨(number ++ "/" ++ toString (yearMonth periodFrom).1 ++ "-" ++
    padded 2 (yearMonth periodFrom).2).toList, ?_⟩
  rw [invoiceNumber_eq, String.toList_append, String.toList_append, List.append_assoc]
  rfl

/-- The number of an invoice tells how many there were. -/
theorem sequence_eq {number number' : String} {periodFrom periodFrom' : ℤ} {m n : ℕ}
    (h : invoiceNumber number periodFrom m = invoiceNumber number' periodFrom' n) : m = n := by
  obtain ⟨l, hl⟩ := toList_invoiceNumber number periodFrom m
  obtain ⟨l', hl'⟩ := toList_invoiceNumber number' periodFrom' n
  have htext : l ++ '-' :: (padded 3 m).toList = l' ++ '-' :: (padded 3 n).toList := by
    rw [← hl, ← hl', h]
  exact padded_injective (eq_of_last_field (not_mem_padded 3 m) (not_mem_padded 3 n) htext)

theorem month_bounds (date : ℤ) : 1 ≤ (yearMonth date).2 ∧ (yearMonth date).2 ≤ 12 := by
  unfold yearMonth
  dsimp only
  omega

/-- A month is written with two digits. -/
theorem length_month (date : ℤ) : (padded 2 (yearMonth date).2).length = 2 := by
  have hbounds := month_bounds date
  generalize (yearMonth date).2 = month at hbounds ⊢
  have hall : ∀ k : Fin 13, (padded 2 (k.val : ℤ)).length = 2 := by decide +kernel
  have hmonth : month = ((⟨month.toNat, by omega⟩ : Fin 13).val : ℤ) := by
    dsimp only
    omega
  rw [hmonth]
  exact hall _

/-- How long the number of an invoice is. -/
theorem length_invoiceNumber (number : String) (periodFrom : ℤ) (n : ℕ) :
    (invoiceNumber number periodFrom n).length =
      number.length + (toString (yearMonth periodFrom).1).length +
        max 3 (toString n).length + 5 := by
  have hmonth := length_month periodFrom
  have hsequence : (padded 3 (n : ℤ)).length = max 3 (toString n).length := length_padded 3 n
  have hslash : "/".length = 1 := rfl
  have hdash : "-".length = 1 := rfl
  rw [invoiceNumber_eq]
  simp only [String.length_append]
  omega

/-! ## Counted invoices -/

/-- The invoices of a contract that are counted for the next number. -/
def isInvoiceOf (c : Uuid) (i : Invoice) : Bool := i.contractId = c && i.isActive

/-- How many invoices a contract has. -/
def invoiceCount (c : Uuid) (s : Db) : ℕ :=
  (s.invoices.select fun _ i => i.contractId = c && i.isActive).length

theorem invoiceCount_eq (c : Uuid) (s : Db) :
    (invoiceCount c s : ℤ) = s.invoices.total fun _ i => if isInvoiceOf c i then 1 else 0 :=
  Table.length_select _ _

/-- A new invoice counts for its contract only. -/
theorem invoiceCount_new {c : Uuid} {s s' : Db} {id : Uuid} {i : Invoice}
    (hfresh : s.invoices.find? id = none) (hput : s'.invoices = s.invoices.put id (some i)) :
    invoiceCount c s' = invoiceCount c s + if isInvoiceOf c i then 1 else 0 := by
  have hnew := invoiceCount_eq c s'
  have hold := invoiceCount_eq c s
  rw [hput, Table.total_put, hfresh, Option.elim_none, Option.elim_some] at hnew
  split at hnew
  · next h =>
    rw [if_pos h]
    omega
  · next h =>
    rw [if_neg h]
    omega

/-- An invoice that stays one of its contract is counted as before. -/
theorem invoiceCount_set {c : Uuid} {s s' : Db} {id : Uuid} {i i' : Invoice}
    (hold : s.invoices.find? id = some i) (hput : s'.invoices = s.invoices.put id (some i'))
    (hcontract : i'.contractId = i.contractId) (hactive : i'.isActive = i.isActive) :
    invoiceCount c s' = invoiceCount c s := by
  have hsame : isInvoiceOf c i' = isInvoiceOf c i := by
    rw [isInvoiceOf, isInvoiceOf, hcontract, hactive]
  have hnew := invoiceCount_eq c s'
  have hbefore := invoiceCount_eq c s
  rw [hput, Table.total_put, hold, Option.elim_some, Option.elim_some, hsame] at hnew
  omega

/-- Every invoice is numbered with its place among those of its contract. -/
structure Numbered (s : Db) : Prop where
  /-- Numbers are made when invoices are counted. -/
  made : ∀ id i, s.invoices.find? id = some i → i.isActive = true ∧ i.number.length ≤ 50 ∧
    ∃ number periodFrom n, n ≤ invoiceCount i.contractId s ∧
      i.number = invoiceNumber number periodFrom n
  /-- No number is given twice. -/
  distinct : ∀ id id' i i', s.invoices.find? id = some i → s.invoices.find? id' = some i' →
    i.contractId = i'.contractId → i.number = i'.number → id = id'

/-- A new invoice with the next number. -/
structure Next (c : Uuid) (s : Db) (i : Invoice) : Prop where
  /-- The contract. -/
  contractId_eq : i.contractId = c
  /-- It is counted from now on. -/
  isActive_eq : i.isActive = true
  /-- The number fits its column. -/
  number_length : i.number.length ≤ 50
  /-- The number is the next one. -/
  number_eq : ∃ number periodFrom, i.number = invoiceNumber number periodFrom (invoiceCount c s + 1)

/-- The next number is not in use. -/
theorem Numbered.unused {s : Db} (h : Numbered s) {id : Uuid} {i : Invoice}
    (hi : s.invoices.find? id = some i) (number : String) (periodFrom : ℤ) :
    i.number ≠ invoiceNumber number periodFrom (invoiceCount i.contractId s + 1) := by
  intro heq
  obtain ⟨-, -, number', periodFrom', n, hle, hnumber⟩ := h.made id i hi
  have hsequence := sequence_eq (hnumber.symm.trans heq)
  omega

/-- An invoice with the next number keeps all numbered. -/
theorem Numbered.add {s s' : Db} (h : Numbered s) {c id : Uuid} {i : Invoice}
    (hfresh : s.invoices.find? id = none) (hput : s'.invoices = s.invoices.put id (some i))
    (hnext : Next c s i) : Numbered s' := by
  obtain ⟨number, periodFrom, hnumber⟩ := hnext.number_eq
  have hcount := fun c => invoiceCount_new (c := c) hfresh hput
  have hself : invoiceCount i.contractId s' = invoiceCount i.contractId s + 1 := by
    rw [hcount, isInvoiceOf, hnext.isActive_eq, decide_eq_true rfl]
    rfl
  have hfind : ∀ j x, s'.invoices.find? j = some x →
      j = id ∧ x = i ∨ j ≠ id ∧ s.invoices.find? j = some x := by
    intro j x hx
    rw [hput, Table.find?_put] at hx
    split at hx
    · next hj => exact .inl ⟨hj, (Option.some.inj hx).symm⟩
    · next hj => exact .inr ⟨hj, hx⟩
  rw [← hnext.contractId_eq] at hnumber
  constructor
  · intro j x hx
    rcases hfind j x hx with ⟨-, rfl⟩ | ⟨-, hx⟩
    · exact ⟨hnext.isActive_eq, hnext.number_length, number, periodFrom, _, hself.ge, hnumber⟩
    · obtain ⟨hactive, hlength, number', periodFrom', n, hle, heq⟩ := h.made j x hx
      refine ⟨hactive, hlength, number', periodFrom', n, ?_, heq⟩
      have hgrows := hcount x.contractId
      omega
  · intro j j' x x' hx hx' hcontract heq
    rcases hfind j x hx with ⟨rfl, rfl⟩ | ⟨-, hx⟩
    · rcases hfind j' x' hx' with ⟨rfl, -⟩ | ⟨-, hx'⟩
      · rfl
      · refine absurd ?_ (h.unused hx' number periodFrom)
        rw [← hcontract, ← heq, hnumber]
    · rcases hfind j' x' hx' with ⟨rfl, rfl⟩ | ⟨-, hx'⟩
      · refine absurd ?_ (h.unused hx number periodFrom)
        rw [hcontract, heq, hnumber]
      · exact h.distinct j j' x x' hx hx' hcontract heq

/-- A change of an invoice that keeps its number keeps all numbered. -/
theorem Numbered.set {s s' : Db} (h : Numbered s) {id : Uuid} {i : Invoice} {data : InvoiceUpdate}
    (hold : s.invoices.find? id = some i)
    (hput : s'.invoices = s.invoices.put id (some (i.set data))) : Numbered s' := by
  have hcount : ∀ c, invoiceCount c s' = invoiceCount c s :=
    fun c => invoiceCount_set hold hput rfl rfl
  have hfind : ∀ j x, s'.invoices.find? j = some x → ∃ y, s.invoices.find? j = some y ∧
      x.contractId = y.contractId ∧ x.isActive = y.isActive ∧ x.number = y.number := by
    intro j x hx
    rw [hput, Table.find?_put] at hx
    split at hx
    · next hj =>
      cases hx
      exact ⟨i, hj ▸ hold, rfl, rfl, rfl⟩
    · exact ⟨x, hx, rfl, rfl, rfl⟩
  constructor
  · intro j x hx
    obtain ⟨y, hy, hcontract, hactive, hnumber⟩ := hfind j x hx
    rw [hcontract, hactive, hnumber, hcount]
    exact h.made j y hy
  · intro j j' x x' hx hx' hcontract hnumber
    obtain ⟨y, hy, hc, -, hn⟩ := hfind j x hx
    obtain ⟨y', hy', hc', -, hn'⟩ := hfind j' x' hx'
    exact h.distinct j j' y y' hy hy' (hc.symm.trans (hcontract.trans hc'))
      (hn.symm.trans (hnumber.trans hn'))

theorem Numbered.congr {s s' : Db} (h : Numbered s) (hsame : s'.invoices = s.invoices) :
    Numbered s' := by
  have hcount : ∀ c, invoiceCount c s' = invoiceCount c s := by
    intro c
    rw [invoiceCount, invoiceCount, hsame]
  constructor
  · intro id i hi
    rw [hcount]
    exact h.made id i (hsame ▸ hi)
  · intro id id' i i' hi hi'
    exact h.distinct id id' i i' (hsame ▸ hi) (hsame ▸ hi')

/-! ## One generation -/

/-- There is room for the next number of a contract: the year, the month, the
count and three separators come after the contract's number. -/
def hasRoom (c : Uuid) (periodFrom : ℤ) (s : Db) : Bool :=
  ((s.contracts.find? c).filter Contract.isActive).all fun contract =>
    decide (contract.number.length + (toString (yearMonth periodFrom).1).length +
      max 3 (toString (invoiceCount c s + 1)).length + 5 ≤ 50)

/-- The exceptions that are about the number of an invoice. -/
def numberError : Err → Bool
  | .stringTooLong column => column = "invoices.number"
  | .uniqueViolation constraint => constraint = "uq_invoice_contract_number"
  | _ => false

/-- What others may do: locked rows stay, and a locked contract gets no invoices. -/
structure Relies (H : Key → Prop) (s s' : Db) : Prop where
  /-- Locked rows stay as they are. -/
  rows : ∀ k, H k → schema.get s' k = schema.get s k
  /-- Invoices are added under the lock of their contract. -/
  counts : ∀ c, H (.contract c) → invoiceCount c s' = invoiceCount c s
  /-- Numbers are counted up. -/
  numbered : Numbered s → Numbered s'

/-- The others of a request. -/
def around : Surroundings schema where
  rely := Relies
  skips _ _ := True

theorem around_lawful : around.Lawful where
  refl _ _ := ⟨fun _ _ => rfl, fun _ _ => rfl, fun h => h⟩
  trans h h' := ⟨fun k hk => (h'.rows k hk).trans (h.rows k hk),
    fun c hc => (h'.counts c hc).trans (h.counts c hc), fun hs => h'.numbered (h.numbered hs)⟩

/-- A generation has added the next invoice of a contract that it holds. -/
structure Generated (c : Uuid) (H : Key → Prop) (W : List (RowWrite schema)) (s : Db) : Prop where
  /-- The contract is locked. -/
  contract : H (.contract c)
  /-- The invoice is the only row that is written. -/
  written : ∃ id i, W = [⟨.invoice id, some i⟩] ∧ H (.invoice id) ∧
    s.invoices.find? id = none ∧ Next c s i

/-- What a request has done when it commits. -/
def Goal (r : Request) (H : Key → Prop) (W : List (RowWrite schema)) (s : Db) : Prop :=
  ∀ c periodFrom periodTo, r.op = .generateInvoice c periodFrom periodTo → Generated c H W s

/-- A generation fails because of its number only if there is no room for it. -/
def Failing (r : Request) (e : Err) (H : Key → Prop) (_W : List (RowWrite schema)) (s : Db) : Prop :=
  ∀ c periodFrom periodTo, r.op = .generateInvoice c periodFrom periodTo → numberError e = true →
    H (.contract c) ∧ hasRoom c periodFrom s = false

section Assertions

variable {r : Request} {c : Uuid} {H : Key → Prop} {W : List (RowWrite schema)} {s s' : Db}

theorem hasRoom_relies {periodFrom : ℤ} (hcontract : H (.contract c)) (h : Relies H s s') :
    hasRoom c periodFrom s' = hasRoom c periodFrom s := by
  have hrow : s'.contracts.find? c = s.contracts.find? c := h.rows _ hcontract
  rw [hasRoom, hasRoom, hrow, h.counts c hcontract]

theorem Next.relies {i : Invoice} (h : Next c s i) (hcount : invoiceCount c s' = invoiceCount c s) :
    Next c s' i := by
  refine ⟨h.contractId_eq, h.isActive_eq, h.number_length, ?_⟩
  rw [hcount]
  exact h.number_eq

theorem Goal.relies (h : Goal r H W s) (hs : Relies H s s') : Goal r H W s' := by
  intro c periodFrom periodTo hop
  obtain ⟨hcontract, id, i, hwrites, hlocked, hfresh, hnext⟩ := h c periodFrom periodTo hop
  have hrow : s'.invoices.find? id = s.invoices.find? id := hs.rows _ hlocked
  exact ⟨hcontract, id, i, hwrites, hlocked, hrow.trans hfresh,
    hnext.relies (hs.counts c hcontract)⟩

theorem Failing.relies {e : Err} (h : Failing r e H W s) (hs : Relies H s s') :
    Failing r e H W s' := by
  intro c periodFrom periodTo hop he
  obtain ⟨hcontract, hroom⟩ := h c periodFrom periodTo hop he
  exact ⟨hcontract, (hasRoom_relies hcontract hs).trans hroom⟩

theorem failing_of_other {e : Err} (he : numberError e = false) : Failing r e H W s := by
  intro c periodFrom periodTo _ hnumber
  rw [he] at hnumber
  cases hnumber

end Assertions

/-- An invoice that is stored has a number that fits. -/
theorem insert_ok {i : Invoice} {old row : Option Invoice}
    (h : (InvoiceStmt.insert i).exec old = .ok row) :
    old = none ∧ row = some i ∧ i.number.length ≤ 50 := by
  cases old with
  | some _ => cases h
  | none =>
    obtain ⟨hrow, hchecks⟩ := checked_ok h
    have hfits := hchecks (fits 50 (some i.number), .stringTooLong "invoices.number") (by simp)
    exact ⟨rfl, hrow, of_decide_eq_true hfits⟩

/-- An invoice that is refused because of its number has one that does not fit. -/
theorem insert_error {i : Invoice} {old : Option Invoice} {e : Err}
    (h : (InvoiceStmt.insert i).exec old = .error e) (he : numberError e = true) :
    50 < i.number.length := by
  cases old with
  | some _ =>
    cases h
    cases he
  | none =>
    have hmem := checked_error h
    simp only [List.mem_cons, Prod.mk.injEq, List.not_mem_nil, or_false] at hmem
    rcases hmem with ⟨hfits, -⟩ | ⟨-, rfl⟩ | ⟨-, rfl⟩ | ⟨-, rfl⟩
    · have hlong := of_decide_eq_false hfits.symm
      omega
    · cases he
    · cases he
    · cases he

/-- A generation counts the invoices of the contract that it has locked. -/
theorem ends_generateInvoice {r : Request} {c : Uuid} {periodFrom periodTo : ℤ} {s : Db}
    (hs : Numbered s) (hop : r.op = .generateInvoice c periodFrom periodTo) :
    Ends around (generateInvoice r.env c periodFrom periodTo) (fun _ => Goal r) (Failing r)
      (fun _ => False) [] s := by
  have hother : ∀ {e H W s}, numberError e = false → Failing r e H W s :=
    fun he => failing_of_other he
  refine (ends_bind _ _).mpr ((ends_bind _ _).mpr fun s₁ hs₁ => ?_)
  refine (ends_orRaise _ _).mpr ⟨fun _ => hother rfl, fun contract hcontract => ?_⟩
  have hfound : (s₁.contracts.find? c).filter Contract.isActive = some contract := hcontract
  have hlocked : taking (S := schema) (fun _ => False) (.contract c) (.contract c) := .inr rfl
  generalize hH : taking (S := schema) (fun _ => False) (.contract c) = H at hlocked ⊢
  -- the period has no invoice yet
  refine (ends_bind _ _).mpr ((ends_bind _ _).mpr fun s₂ hs₂ => ?_)
  have hperiod : ∀ (l : List Invoice) (Q : Option Invoice → Assertion schema),
      (∀ o, Q o H [] s₂) → Ends around (scalarOneOrNone l) Q (Failing r) H [] s₂ := by
    intro l Q hQ
    match l with
    | [] => exact hQ none
    | [i] => exact hQ (some i)
    | _ :: _ :: _ => exact hother rfl
  refine hperiod _ _ fun duplicate => ?_
  refine (ends_bind _ _).mpr ((ends_raiseIf _ _).mpr ⟨fun _ => hother rfl, fun _ => ?_⟩)
  refine (ends_bind _ _).mpr fun s₃ hs₃ => ?_
  refine (ends_bind _ _).mpr fun s₄ hs₄ => ?_
  refine (ends_bind _ _).mpr fun s₅ hs₅ => ?_
  refine (ends_bind _ _).mpr fun s₆ hs₆ => ?_
  have hto₄ : Relies H s₁ s₄ := around_lawful.trans (around_lawful.trans hs₂ hs₃) hs₄
  have hto₆ : Relies H s₄ s₆ := around_lawful.trans hs₅ hs₆
  have hnumbered₅ : Numbered s₅ := hs₅.numbered (hto₄.numbered (hs₁.numbered hs))
  have hcount₅ : invoiceCount c s₅ = invoiceCount c s₄ := hs₅.counts c hlocked
  have hcount₆ : invoiceCount c s₆ = invoiceCount c s₄ := hto₆.counts c hlocked
  have hcontract₆ : s₆.contracts.find? c = s₁.contracts.find? c :=
    (around_lawful.trans hto₄ hto₆).rows _ hlocked
  constructor
  · intro row hrow
    obtain ⟨hfresh, rfl, hlength⟩ := insert_ok hrow
    refine (ends_raiseIf _ _).mpr ⟨fun htaken => ?_, fun _ => ?_⟩
    · -- an invoice with this number would have been counted
      obtain ⟨i, hi⟩ := List.exists_mem_of_ne_nil _ htaken
      obtain ⟨id, hi, hsame⟩ := (Table.mem_select_iff _ _ _).mp hi
      rw [Bool.and_eq_true] at hsame
      have hcontractId := of_decide_eq_true hsame.1
      have hunused := hnumbered₅.unused hi contract.number periodFrom
      rw [hcontractId, hcount₅] at hunused
      exact absurd (of_decide_eq_true hsame.2) hunused
    · intro c' periodFrom' periodTo' hop'
      cases hop.symm.trans hop'
      refine ⟨.inl hlocked, _, _, rfl, .inr rfl, hfresh, rfl, rfl, hlength, ?_⟩
      rw [hcount₆]
      exact ⟨contract.number, periodFrom, rfl⟩
  · intro e he c' periodFrom' periodTo' hop' hnumber
    cases hop.symm.trans hop'
    have hlong := insert_error he hnumber
    refine ⟨.inl hlocked, ?_⟩
    have hlength := length_invoiceNumber contract.number periodFrom (invoiceCount c s₄ + 1)
    rw [hasRoom, hcontract₆, hfound, hcount₆, Option.all_some, decide_eq_false_iff_not, ← hlength]
    exact Nat.not_le.mpr hlong

/-! ## Commits -/

/-- The other requests keep the numbers. -/
theorem change_kept {R : Regime schema} {r : Request} {s s' : Db} (hs : Numbered s)
    (hop : ∀ c periodFrom periodTo, r.op ≠ .generateInvoice c periodFrom periodTo)
    (h : Change R r s s') : Numbered s' ∧ ∀ c, invoiceCount c s' = invoiceCount c s := by
  have hsame : s'.invoices = s.invoices →
      Numbered s' ∧ ∀ c, invoiceCount c s' = invoiceCount c s := by
    intro heq
    refine ⟨hs.congr heq, fun c => ?_⟩
    rw [invoiceCount, invoiceCount, heq]
  cases h.kind with
  | order _ _ _ _ _ _ _ _ hinvoices => exact hsame hinvoices
  | cancelled _ _ _ _ _ _ hinvoices => exact hsame hinvoices
  | priceSet _ _ _ _ _ _ _ _ hinvoices => exact hsame hinvoices
  | priceRemoved _ _ _ _ _ _ _ _ _ hinvoices => exact hsame hinvoices
  | billed _ c periodFrom periodTo _ hgenerate => exact absurd hgenerate (hop c periodFrom periodTo)
  | invoiceSet id i data hrow hinvoices =>
    exact ⟨hs.set hrow hinvoices, fun c => invoiceCount_set hrow hinvoices rfl rfl⟩
  | other _ _ _ hinvoices => exact hsame hinvoices

/-- A commit keeps the invoices numbered and adds some only under the lock of their contract. -/
theorem commit_kept {σ : Sys schema Request} {t : Tid} {r : Request} {W : List (RowWrite schema)}
    (hs : Numbered σ.db) (hcommits : Commits σ t r (view σ.db W))
    (hgoal : Goal r (fun k => σ.holder k = some t) W σ.db) :
    Numbered (view σ.db W) ∧ ∀ c, σ.holder (.contract c) ≠ some t →
      invoiceCount c (view σ.db W) = invoiceCount c σ.db := by
  by_cases hop : ∃ c periodFrom periodTo, r.op = .generateInvoice c periodFrom periodTo
  · obtain ⟨c, periodFrom, periodTo, hop⟩ := hop
    obtain ⟨hcontract, id, i, rfl, -, hfresh, hnext⟩ := hgoal c periodFrom periodTo hop
    have hput : (view σ.db [⟨.invoice id, some i⟩]).invoices =
        σ.db.invoices.put id (some i) := rfl
    refine ⟨hs.add hfresh hput hnext, fun c' hc' => ?_⟩
    have hne : i.contractId ≠ c' := by
      intro heq
      rw [hnext.contractId_eq] at heq
      exact hc' (heq ▸ hcontract)
    rw [invoiceCount_new hfresh hput, isInvoiceOf, decide_eq_false hne]
    rfl
  · have hop : ∀ c periodFrom periodTo, r.op ≠ .generateInvoice c periodFrom periodTo :=
      fun c periodFrom periodTo heq => hop ⟨c, periodFrom, periodTo, heq⟩
    have hkept := hcommits.changes.induction
      (I := fun s => Numbered s ∧ ∀ c, invoiceCount c s = invoiceCount c σ.db)
      ⟨hs, fun _ => rfl⟩ fun s₁ s₂ h₁ hchange => by
        obtain ⟨hnumbered, hcount⟩ := change_kept h₁.1 hop hchange
        exact ⟨hnumbered, fun c => (hcount c).trans (h₁.2 c)⟩
    exact ⟨hkept.1, fun c _ => hkept.2 c⟩

/-! ## Runs -/

/-- What holds in every state of a run. -/
structure Kept (σ : Sys schema Request) : Prop where
  /-- The orders are in order. -/
  ordersOk : OrdersOk σ.db
  /-- The invoices are numbered. -/
  numbered : Numbered σ.db
  /-- Generations are on their way to the next number. -/
  judged : Judged (fun _ => around) Goal Failing σ

section Runs

variable {s : Db} {σ σ' : Sys schema Request}

theorem init_kept (s : Db) : Kept (Sys.init (fresh s)) where
  ordersOk id o ho := absurd ho (by simp [Sys.init, fresh])
  numbered := ⟨fun id i hi => absurd hi (by simp [Sys.init, fresh]),
    fun id _ i _ hi => absurd hi (by simp [Sys.init, fresh])⟩
  judged := init_judged _

/-- A request ends as it should, whatever the others do. -/
theorem ends_program (r : Request) (hs : Numbered s) :
    Ends around (program r) (fun _ => Goal r) (Failing r) (fun _ => False) [] s := by
  by_cases hop : ∃ c periodFrom periodTo, r.op = .generateInvoice c periodFrom periodTo
  · obtain ⟨c, periodFrom, periodTo, hop⟩ := hop
    have hprogram : program r = generateInvoice r.env c periodFrom periodTo := by
      rw [program, hop]
    rw [hprogram]
    exact ends_generateInvoice hs hop
  · refine (ends_trivial _).mono (fun _ _ _ _ _ c periodFrom periodTo heq => ?_)
      fun _ _ _ _ _ c periodFrom periodTo heq => ?_
    · exact absurd ⟨c, periodFrom, periodTo, heq⟩ hop
    · exact absurd ⟨c, periodFrom, periodTo, heq⟩ hop

theorem Kept.exec (h : Kept σ) (hreach : Reach program (fun _ _ _ => True) (Sys.init (fresh s)) σ)
    {a : ReadCommitted.Action Request} (hexec : σ.exec program a = some σ') : Kept σ' := by
  have hdisciplined : Disciplined (fun r : Request => contractRows 0 (licence r.op))
      (schema.static (fresh s)) σ :=
    Reach.disciplined (fun _ _ _ => trivial) (fun r => keepsOrder_program r) hreach
  have hjudged := fun hcommit : ∀ t u y, a = .commit t → u ≠ t → σ.txns u = some y →
      around.rely (fun k => σ.holder k = some u) σ.db σ'.db =>
    h.judged.exec (fun _ => around_lawful) (fun t r _ => ends_program r h.numbered)
      hdisciplined.idle (fun _ _ _ _ _ _ _ => .inr trivial) hcommit hexec
  by_cases hcommit : ∃ t, a = .commit t
  · obtain ⟨t, rfl⟩ := hcommit
    obtain ⟨x, u, hx, hret, hdb, hcommits⟩ := commits_of_exec hreach h.ordersOk hexec
    have hgoal := h.judged.ended (fun _ _ _ _ _ hgoal hrely => hgoal.relies hrely) hx hret
    rw [hdb] at hcommits
    obtain ⟨hnumbered, hcounts⟩ := commit_kept h.numbered hcommits hgoal
    rw [← hdb] at hcommits hnumbered hcounts
    refine ⟨hcommits.changes.ordersOk h.ordersOk, hnumbered, hjudged fun t' v y ha hv hy => ?_⟩
    cases ha
    refine ⟨fun k hk => hcommits.others v k hv hk, fun c hc => hcounts c fun ht => ?_,
      fun _ => hnumbered⟩
    exact hv (Option.some.inj (hc.symm.trans ht))
  · have hdb : σ'.db = σ.db := Sys.db_of_not_commit (fun t ha => hcommit ⟨t, ha⟩) hexec
    refine ⟨hdb ▸ h.ordersOk, hdb ▸ h.numbered, hjudged fun t _ _ ha _ _ => ?_⟩
    exact absurd ⟨t, ha⟩ hcommit

theorem kept_of_reach (h : Reach program (fun _ _ _ => True) (Sys.init (fresh s)) σ) : Kept σ := by
  induction h with
  | init => exact init_kept s
  | next a hprev _ hexec ih => exact ih.exec hprev hexec

/-- A generation that has failed because of its number has no room for it. -/
theorem Kept.no_room (h : Kept σ) {t : Tid} {x : Txn schema Request} {e : Err}
    {c : Uuid} {periodFrom periodTo : ℤ} (hx : σ.txns t = some x) (hraise : x.prog = .raise e)
    (hop : x.op.op = .generateInvoice c periodFrom periodTo) (he : numberError e = true) :
    hasRoom c periodFrom σ.db = false :=
  (h.judged.failed (fun _ _ _ _ _ _ hfailing hrely => hfailing.relies hrely) hx hraise
    c periodFrom periodTo hop he).2

end Runs

/-! ## The statement of a generation -/

/-- Exceptions before the first statement meet a condition, and that statement is
the last step. -/
def LastStatement {α : Type} (X : Err → Prop) : Uow α → Prop
  | .ret _ => True
  | .raise e => X e
  | .query next => ∀ v, LastStatement X (next v)
  | .lock _ next => ∀ r, LastStatement X (next r)
  | .tryLock _ next => ∀ r, LastStatement X (next r)
  | .write _ _ next => (∃ a, next = .ret a) ∨ ∃ e, next = .raise e

theorem lastStatement_bind {α β : Type} {X : Err → Prop} {p : Uow α} {f : α → Uow β}
    (hp : Within (S := schema) (fun _ _ => False) X p) (hf : ∀ a, LastStatement X (f a)) :
    LastStatement X (p >>= f) := by
  change LastStatement X (p.bind f)
  induction p with
  | ret a => exact hf a
  | raise e => exact hp
  | query next ih => exact fun v => ih v (hp v)
  | lock k next ih => exact fun r => ih r (hp r)
  | tryLock k next ih => exact fun r => ih r (hp r)
  | write k st next ih => exact hp.1.elim

/-- A generation inserts the invoice last, and before that its number does no harm. -/
theorem lastStatement_generateInvoice (env : Env) (c : Uuid) (periodFrom periodTo : ℤ) :
    LastStatement (fun e => numberError e = false)
      (generateInvoice env c periodFrom periodTo) := by
  have hperiod : ∀ l : List Invoice, Within (S := schema) (fun _ _ => False)
      (fun e => numberError e = false) (scalarOneOrNone l) := by
    intro l
    match l with
    | [] => exact trivial
    | [_] => exact trivial
    | _ :: _ :: _ => exact rfl
  refine lastStatement_bind (within_bind (within_locked _) fun row => ?_) fun contract => ?_
  · exact (within_orRaise _ _).mpr fun _ => rfl
  refine lastStatement_bind (within_bind (within_ask _) fun l => hperiod l) fun duplicate => ?_
  refine lastStatement_bind ((within_raiseIf _ _).mpr fun _ => rfl) fun _ => ?_
  refine lastStatement_bind (within_ask _) fun orders => ?_
  refine lastStatement_bind (within_ask _) fun existing => ?_
  refine lastStatement_bind (within_ask _) fun taken => ?_
  by_cases htaken : taken ≠ []
  · exact .inr ⟨_, if_pos htaken⟩
  · exact .inl ⟨(), if_neg htaken⟩

/-! ## All numbers -/

/-- There is room for the number of an invoice whose insertion is the next step. -/
def RoomAtInsert (σ : Sys schema Request) : ReadCommitted.Action Request → Prop
  | .step t => ∀ x c periodFrom periodTo k st next, σ.txns t = some x →
    x.op.op = .generateInvoice c periodFrom periodTo → x.prog = .write k st next →
    hasRoom c periodFrom σ.db = true
  | _ => True

/-- No generation has failed because of its number. -/
def NoneRefused (σ : Sys schema Request) : Prop :=
  ∀ t x c periodFrom periodTo, σ.txns t = some x →
    x.op.op = .generateInvoice c periodFrom periodTo →
    LastStatement (fun e => numberError e = false) x.prog

/-- A step of a generation that has room does not fail because of the number. -/
theorem noneRefused_steps {σ : Sys schema Request} {t : Tid} {x y : Txn schema Request}
    {holder : Key → Option Tid} {c : Uuid} {periodFrom periodTo : ℤ}
    (hkept : Kept (σ.resume t y holder)) (hroom : RoomAtInsert σ (.step t))
    (hx : σ.txns t = some x) (hop : x.op.op = .generateInvoice c periodFrom periodTo)
    (hlast : LastStatement (fun e => numberError e = false) x.prog)
    (hsteps : σ.Steps t x y holder) :
    LastStatement (fun e => numberError e = false) y.prog := by
  have hrefused : ∀ e, hasRoom c periodFrom σ.db = true → y.prog = .raise e →
      numberError e = false := by
    intro e hspace hraise
    have htxn : (σ.resume t y holder).txns t = some y := Function.update_self t _ _
    cases he : numberError e with
    | false => rfl
    | true =>
      have hfull := hkept.no_room htxn hraise ((congrArg Request.op hsteps.op_eq).trans hop) he
      exact absurd (hspace.symm.trans hfull) (by simp)
  cases hsteps with
  | query => exact hlast _
  | lock _ => exact hlast _
  | tryLock _ => exact hlast _
  | skip _ => exact hlast _
  | write _ _ =>
    have hspace := hroom _ c periodFrom periodTo _ _ _ hx hop rfl
    rcases hlast with ⟨a, rfl⟩ | ⟨e, rfl⟩
    · exact trivial
    · exact hrefused e hspace rfl
  | fail _ _ =>
    have hspace := hroom _ c periodFrom periodTo _ _ _ hx hop rfl
    exact hrefused _ hspace rfl

theorem noneRefused_exec {σ σ' : Sys schema Request} (h : NoneRefused σ) (hkept : Kept σ')
    {a : ReadCommitted.Action Request} (hroom : RoomAtInsert σ a)
    (hexec : σ.exec program a = some σ') : NoneRefused σ' := by
  intro u y c periodFrom periodTo hy hop
  cases a with
  | start t r =>
    obtain ⟨-, rfl⟩ := Sys.start_cases hexec
    rcases Sys.resume_cases hy with ⟨rfl, rfl⟩ | ⟨-, hy⟩
    · have hprogram : program r = generateInvoice r.env c periodFrom periodTo := by
        rw [program, hop]
      change LastStatement _ (program r)
      rw [hprogram]
      exact lastStatement_generateInvoice r.env c periodFrom periodTo
    · exact h u y c periodFrom periodTo hy hop
  | step t =>
    obtain ⟨x, z, holder, hx, rfl, hsteps⟩ := Sys.step_cases hexec
    rcases Sys.resume_cases hy with ⟨rfl, rfl⟩ | ⟨-, hy⟩
    · rw [hsteps.op_eq] at hop
      exact noneRefused_steps hkept hroom hx hop (h u x c periodFrom periodTo hx hop) hsteps
    · exact h u y c periodFrom periodTo hy hop
  | commit t =>
    obtain ⟨x, v, -, -, rfl⟩ := Sys.commit_cases hexec
    exact h u y c periodFrom periodTo (Sys.finish_cases hy).2 hop
  | rollback t =>
    obtain ⟨x, -, rfl⟩ := Sys.rollback_cases hexec
    exact h u y c periodFrom periodTo (Sys.finish_cases hy).2 hop

/-- The numbers of a contract's invoices are distinct and fit their column, and
no generation has failed because of its number. -/
structure NumbersInOrder (σ : Sys schema Request) : Prop where
  /-- No two invoices of a contract have the same number. -/
  distinct : ∀ id id' i i', σ.db.invoices.find? id = some i → σ.db.invoices.find? id' = some i' →
    i.contractId = i'.contractId → i.number = i'.number → id = id'
  /-- Numbers fit the column. -/
  fits : ∀ id i, σ.db.invoices.find? id = some i → i.number.length ≤ 50
  /-- A generation fails for other reasons. -/
  accepted : ∀ t x c periodFrom periodTo e, σ.txns t = some x →
    x.op.op = .generateInvoice c periodFrom periodTo → x.prog = .raise e → numberError e = false

/-- In every run in which there is room for the number of each invoice that is
inserted, whatever is requested concurrently, the numbers are in order. -/
theorem invoice_numbers_in_order (s : Db) {σ : Sys schema Request}
    (h : Runs program RoomAtInsert (Sys.init (fresh s)) σ) : NumbersInOrder σ := by
  have hnone : NoneRefused σ := by
    induction h with
    | init => exact fun t x c periodFrom periodTo hx => absurd hx (by simp [Sys.init])
    | next a hprev hroom hexec ih =>
      exact noneRefused_exec ih (kept_of_reach (hprev.next a hroom hexec).reach) hroom hexec
  have hkept := kept_of_reach h.reach
  constructor
  · exact hkept.numbered.distinct
  · intro id i hi
    exact (hkept.numbered.made id i hi).2.1
  · intro t x c periodFrom periodTo e hx hop hraise
    have hlast := hnone t x c periodFrom periodTo hx hop
    rw [hraise] at hlast
    exact hlast

/-- A decision that inserts no invoice without room for its number. -/
def execRoom (σ : Sys schema Request) (a : ReadCommitted.Action Request) :
    Option (Sys schema Request) :=
  match a with
  | .step t =>
    match σ.txns t with
    | some ⟨⟨_, .generateInvoice c periodFrom _⟩, .write _ _ _, _⟩ =>
      if hasRoom c periodFrom σ.db then σ.exec program a else none
    | _ => σ.exec program a
  | _ => σ.exec program a

theorem execRoom_room {σ σ' : Sys schema Request} {a : ReadCommitted.Action Request}
    (h : execRoom σ a = some σ') : RoomAtInsert σ a ∧ σ.exec program a = some σ' := by
  unfold execRoom at h
  split at h
  · next t =>
    split at h
    · next env c periodFrom periodTo k st next writes hx =>
      split at h
      · next hroom =>
        refine ⟨fun y c' periodFrom' periodTo' k' st' next' hy hop _ => ?_, h⟩
        rw [hx] at hy
        cases hy
        cases hop
        exact hroom
      · cases h
    · next hother =>
      refine ⟨fun y c periodFrom periodTo k st next hy hop hprog => ?_, h⟩
      obtain ⟨⟨env, op⟩, prog, writes⟩ := y
      dsimp only at hop hprog
      subst hop hprog
      exact absurd hy (hother env c periodFrom periodTo k st next writes)
  · next hother =>
    refine ⟨?_, h⟩
    cases a with
    | step t => exact absurd rfl (hother t)
    | _ => exact trivial

/-- Two invoices of a contract are generated at the same time; the first one is
cancelled and its month is billed again. -/
def billedAgain : List (ReadCommitted.Action Request) :=
  [.start 0 (sampleRequest 0 0 (.generateInvoice 31 0 30)),
    .start 1 (sampleRequest 1 0 (.generateInvoice 31 31 58)), .step 0, .step 0] ++
  List.replicate 4 (.step 0) ++ [.commit 0] ++ List.replicate 6 (.step 1) ++ [.commit 1] ++
  [.start 2 (sampleRequest 2 1 (.cancelInvoice 31 10000))] ++ List.replicate 3 (.step 2) ++
  [.commit 2, .start 3 (sampleRequest 3 2 (.generateInvoice 31 0 30))] ++
  List.replicate 6 (.step 3) ++ [.commit 3]

/-- The numbers and the statuses of the invoices. -/
def numbers (σ : Sys schema Request) : List (String × InvoiceStatus) :=
  (σ.db.invoices.select fun _ _ => true).map fun i => (i.number, i.status)

theorem invoice_numbers_in_order_sample :
    ∃ σ, billedAgain.foldlM execRoom (Sys.init (fresh sampleDb)) = some σ ∧
      numbers σ = [("A/1970-01-001", .cancelled), ("A/1970-02-002", .draft),
        ("A/1970-01-003", .draft)] ∧ NumbersInOrder σ := by
  have heval : (billedAgain.foldlM execRoom (Sys.init (fresh sampleDb))).map numbers =
      some [("A/1970-01-001", .cancelled), ("A/1970-02-002", .draft),
        ("A/1970-01-003", .draft)] := by decide +kernel
  obtain ⟨σ, hrun, hnumbers⟩ := Option.map_eq_some_iff.mp heval
  have hruns : Runs program RoomAtInsert (Sys.init (fresh sampleDb)) σ := by
    refine Runs.of_fold (I := fun _ => True) (fun τ a τ' _ h => ?_) trivial billedAgain hrun
    obtain ⟨hroom, hexec⟩ := execRoom_room h
    exact ⟨hroom, hexec, trivial⟩
  exact ⟨σ, hrun, hnumbers, invoice_numbers_in_order sampleDb hruns⟩

/-- The sample with a contract's number of 39 characters. -/
def longNumberDb : Db :=
  { sampleDb with contracts := ⟨[(31, ⟨7, String.ofList (List.replicate 39 'A'), .active, 0, none, 10,
      true, none, none, none, none, none, none, []⟩)], by decide⟩ }

/-- An invoice is generated. -/
def billedOnce : List (ReadCommitted.Action Request) :=
  .start 0 (sampleRequest 0 0 (.generateInvoice 31 0 30)) :: List.replicate 6 (.step 0)

/-- A generation has failed because of its number. -/
def refused (σ : Sys schema Request) : Bool :=
  match σ.txns 0 with
  | some ⟨⟨_, .generateInvoice _ _ _⟩, .raise e, _⟩ => numberError e
  | _ => false

/-- A number that a contract may have leaves no room for those of its invoices. -/
theorem long_contract_number_refused :
    ¬ ∀ (s : Db) (σ : Sys schema Request),
      (∀ c x, s.contracts.find? c = some x → 1 ≤ x.number.length ∧ x.number.length ≤ 50) →
      Runs program (fun _ _ => True) (Sys.init (fresh s)) σ → NumbersInOrder σ := by
  intro hclaim
  have hadmitted : ∀ c x, longNumberDb.contracts.find? c = some x →
      1 ≤ x.number.length ∧ x.number.length ≤ 50 := by
    intro c x hx
    have hall : ∀ r ∈ longNumberDb.contracts.rows,
        1 ≤ r.2.number.length ∧ r.2.number.length ≤ 50 := by decide
    exact hall (c, x) ((Table.mem_rows_iff _ c x).mpr hx)
  have heval : (billedOnce.foldlM (Sys.exec program) (Sys.init (fresh longNumberDb))).map
      refused = some true := by decide +kernel
  obtain ⟨σ, hrun, hrefused⟩ := Option.map_eq_some_iff.mp heval
  have hruns : Runs program (fun _ _ => True) (Sys.init (fresh longNumberDb)) σ :=
    Runs.of_fold (I := fun _ => True) (fun τ a τ' _ h => ⟨trivial, h, trivial⟩) trivial
      billedOnce hrun
  have horder := hclaim longNumberDb σ hadmitted hruns
  unfold refused at hrefused
  split at hrefused
  · next env c periodFrom periodTo e writes hx =>
    have haccepted := horder.accepted 0 _ c periodFrom periodTo e hx rfl rfl
    rw [hrefused] at haccepted
    cases haccepted
  · cases hrefused

end Munavvar.InvoiceNumbers
