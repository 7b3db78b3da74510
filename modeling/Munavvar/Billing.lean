import Munavvar.Intervals
import Munavvar.OperationLocks
import Munavvar.SettlementOnce

/-!
# Bills

An invoice keeps a period and an amount but not its orders. Here a bill records
which orders the amount added up when it was generated. Two invoices of a
contract that stand never have the same period, so an order is billed twice
only by different periods that both contain the day of its creation.
-/

namespace Munavvar.Billing

open Munavvar.KeyedTable
open Munavvar.Transaction
open Munavvar.Transaction.Prog
open Munavvar.Database
open Munavvar.Statements
open Munavvar.OrderQueries
open Munavvar.OrderService
open Munavvar.ContractService
open Munavvar.Operations
open Munavvar.OrderChanges
open Munavvar.OrderEffects
open Munavvar.ContractEffects
open Munavvar.OperationLocks (AllActive program_allActive)
open Munavvar.SettlementOnce (isFinal step_of_final isFinal_of_isSettled)
open Munavvar.Intervals

/-! ## Bills -/

/-- A generated invoice with the state in which it was generated. -/
structure Bill where
  /-- The identifier of the invoice. -/
  invoice : Uuid
  /-- The billed contract. -/
  contractId : Uuid
  /-- First day of the period. -/
  periodFrom : ℤ
  /-- Last day of the period. -/
  periodTo : ℤ
  /-- When it was generated. -/
  generatedAt : ℤ
  /-- What it was generated from. -/
  state : Db

/-- The orders that the amount adds up. -/
def Bill.orders (b : Bill) : List (Uuid × Order) :=
  b.state.orders.rows.filter fun x => isDeliveredIn b.contractId b.periodFrom b.periodTo x.2

/-- The sum of these orders. -/
def Bill.amount (b : Bill) : ℤ := (b.orders.map fun x => x.2.totalAmount).sum

/-- An order is on the bill. -/
def Bill.includes (b : Bill) (id : Uuid) : Bool := id ∈ b.orders.map Prod.fst

/-- The invoice of a bill is not cancelled. -/
def Bill.stands (b : Bill) (s : Db) : Bool :=
  (s.invoices.find? b.invoice).any fun i => i.status ≠ .cancelled

/-- A day of the period. -/
abbrev Bill.covers (b : Bill) (day : ℤ) : Prop := Within Bill.periodFrom Bill.periodTo b day

/-- The bill that a request adds if it generates an invoice. -/
def billOf (r : Request) (s : Db) : Option Bill :=
  match r.op, (program r).run s with
  | .generateInvoice contractId periodFrom periodTo, .ok _ =>
    some ⟨r.env.uuid 0 0, contractId, periodFrom, periodTo, r.env.now, s⟩
  | _, _ => none

/-- The bills of a run, oldest first. -/
def bills : List Request → Db → List Bill
  | [], _ => []
  | r :: rs, s => (billOf r s).toList ++ bills rs (serve (program r) s)

theorem bills_concat (rs : List Request) (r : Request) (s : Db) :
    bills (rs ++ [r]) s = bills rs s ++ (billOf r (after rs s)).toList := by
  induction rs generalizing s with
  | nil => exact List.append_nil _
  | cons r' rs ih =>
    have hrest := ih (serve (program r') s)
    rw [List.cons_append, bills, hrest, bills, List.append_assoc]
    rfl

theorem after_concat (rs : List Request) (r : Request) (s : Db) :
    after (rs ++ [r]) s = serve (program r) (after rs s) :=
  serveAll_append program rs [r] s

theorem includes_iff (b : Bill) (id : Uuid) : b.includes id = true ↔
    ∃ o, b.state.orders.find? id = some o ∧
      isDeliveredIn b.contractId b.periodFrom b.periodTo o = true := by
  rw [Bill.includes, decide_eq_true_iff, List.mem_map]
  constructor
  · rintro ⟨⟨_, o⟩, hmem, rfl⟩
    obtain ⟨hrow, hdelivered⟩ := List.mem_filter.mp hmem
    exact ⟨o, (Table.mem_rows_iff _ _ _).mp hrow, hdelivered⟩
  · rintro ⟨o, ho, hdelivered⟩
    exact ⟨(id, o), List.mem_filter.mpr ⟨(Table.mem_rows_iff _ _ _).mpr ho, hdelivered⟩, rfl⟩

/-- The amount that `generate_invoice` computes. -/
theorem amount_eq (b : Bill) : b.amount =
    ((getDeliveredByContract b.contractId b.periodFrom b.periodTo b.state).map
      Order.totalAmount).sum := by
  rw [getDeliveredByContract, Table.select, List.map_map]
  rfl

/-- The days of a period are its times. -/
theorem within_period_iff (dateFrom dateTo time : ℤ) :
    (dateFrom * dayLength ≤ time ∧ time < (dateTo + 1) * dayLength) ↔
      dateFrom ≤ dateOf time ∧ dateOf time ≤ dateTo := by
  unfold dateOf dayLength
  omega

/-- What makes an order one that is billed. -/
theorem isDeliveredIn_iff {c : Uuid} {dateFrom dateTo : ℤ} {o : Order} :
    isDeliveredIn c dateFrom dateTo o = true ↔ o.contractId = some c ∧ isSettled o = true ∧
      (dateFrom ≤ dateOf o.createdAt ∧ dateOf o.createdAt ≤ dateTo) ∧ o.isActive = true := by
  rw [← within_period_iff]
  simp only [isDeliveredIn, isSettled, Bool.and_eq_true, decide_eq_true_eq]
  constructor
  · rintro ⟨⟨⟨⟨hcontract, hstatus⟩, hlower⟩, hupper⟩, hactive⟩
    exact ⟨hcontract, hstatus, ⟨hlower, hupper⟩, hactive⟩
  · rintro ⟨hcontract, hstatus, ⟨hlower, hupper⟩, hactive⟩
    exact ⟨⟨⟨⟨hcontract, hstatus⟩, hlower⟩, hupper⟩, hactive⟩

/-! ## What stays -/

/-- What billing reads of an order stays. -/
structure SameOrder (o o' : Order) : Prop where
  /-- The contract. -/
  contractId_eq : o'.contractId = o.contractId
  /-- The time of creation. -/
  createdAt_eq : o'.createdAt = o.createdAt
  /-- Once it is delivered, it stays delivered for the same total. -/
  settled : isSettled o = true → isSettled o' = true ∧ o'.totalAmount = o.totalAmount

/-- No order is lost, and what billing reads of it stays. -/
def Lasting (s s' : Db) : Prop :=
  ∀ id o, s.orders.find? id = some o → ∃ o', s'.orders.find? id = some o' ∧ SameOrder o o'

/-- An invoice keeps what it bills, and one that is cancelled stays so. -/
structure SameBill (i i' : Invoice) : Prop where
  /-- The contract. -/
  contractId_eq : i'.contractId = i.contractId
  /-- First day. -/
  periodFrom_eq : i'.periodFrom = i.periodFrom
  /-- Last day. -/
  periodTo_eq : i'.periodTo = i.periodTo
  /-- The amount. -/
  amount_eq : i'.amount = i.amount
  /-- It is not archived. -/
  isActive_eq : i'.isActive = i.isActive
  /-- It is not revived. -/
  cancelled : i.status = .cancelled → i'.status = .cancelled

section Kept

variable {R : Regime schema} {r : Request} {s s' s'' : Db}

theorem SameOrder.trans {o o' o'' : Order} (h : SameOrder o o') (h' : SameOrder o' o'') :
    SameOrder o o'' := by
  refine ⟨h'.contractId_eq.trans h.contractId_eq, h'.createdAt_eq.trans h.createdAt_eq, ?_⟩
  intro hsettled
  obtain ⟨hsettled', htotal⟩ := h.settled hsettled
  obtain ⟨hsettled'', htotal'⟩ := h'.settled hsettled'
  exact ⟨hsettled'', htotal'.trans htotal⟩

theorem Lasting.refl (s : Db) : Lasting s s := fun _ o ho => ⟨o, ho, rfl, rfl, fun h => ⟨h, rfl⟩⟩

theorem Lasting.trans (h : Lasting s s') (h' : Lasting s' s'') : Lasting s s'' := by
  intro id o ho
  obtain ⟨o', ho', hsame⟩ := h id o ho
  obtain ⟨o'', ho'', hsame'⟩ := h' id o' ho'
  exact ⟨o'', ho'', hsame.trans hsame'⟩

/-- A step of an order keeps what billing reads of it. -/
theorem sameOrder_of_step {id : Uuid} {o new : Order} (h : OrderStep R r s id (some o) new) :
    SameOrder o new := by
  have hcreated : new.createdAt = o.createdAt := by cases h <;> rfl
  refine ⟨h.sameHeader.contractId_eq, hcreated, fun hsettled => ?_⟩
  obtain ⟨hstatus, -, -, -, -, htotal, -⟩ := step_of_final h (isFinal_of_isSettled hsettled)
  refine ⟨?_, htotal⟩
  rw [isSettled, hstatus]
  exact hsettled

theorem lasting_of_changes (h : Changes R r s s') : Lasting s s' := by
  refine h.induction (Lasting.refl s) fun s₁ s₂ hs₁ hchange => hs₁.trans fun id o ho => ?_
  rcases hchange.order_cases id with hsame | ⟨new, hnew, hstep⟩
  · exact ⟨o, hsame.trans ho, rfl, rfl, fun h => ⟨h, rfl⟩⟩
  · rw [ho] at hstep
    exact ⟨new, hnew, sameOrder_of_step hstep⟩

theorem SameBill.refl (i : Invoice) : SameBill i i := ⟨rfl, rfl, rfl, rfl, rfl, fun h => h⟩

theorem SameBill.trans {i i' i'' : Invoice} (h : SameBill i i') (h' : SameBill i' i'') :
    SameBill i i'' := by
  constructor
  · exact h'.contractId_eq.trans h.contractId_eq
  · exact h'.periodFrom_eq.trans h.periodFrom_eq
  · exact h'.periodTo_eq.trans h.periodTo_eq
  · exact h'.amount_eq.trans h.amount_eq
  · exact h'.isActive_eq.trans h.isActive_eq
  · exact fun hcancelled => h'.cancelled (h.cancelled hcancelled)

/-- A transition keeps what an invoice bills. -/
theorem sameBill_of_set {i : Invoice} {data : InvoiceUpdate}
    (hedge : invoiceEdge i.status data.status = true) : SameBill i (i.set data) := by
  refine ⟨rfl, rfl, rfl, rfl, rfl, fun hcancelled => ?_⟩
  rw [hcancelled] at hedge
  cases hedge

/-- An invoice before and after: the same, or there was none. -/
abbrev InvoiceKept (old new : Option Invoice) : Prop := Option.Rel SameBill old new

theorem InvoiceKept.refl (old : Option Invoice) : InvoiceKept old old := by
  cases old with
  | none => exact .none
  | some i => exact .some (SameBill.refl i)

theorem InvoiceKept.trans {old mid new : Option Invoice} (h : InvoiceKept old mid)
    (h' : InvoiceKept mid new) : InvoiceKept old new := by
  cases h with
  | none => exact h'
  | some h =>
    cases h' with
    | some h' => exact .some (h.trans h')

/-- Alone, a request that generates no invoice keeps what they bill. -/
theorem invoices_of_changes (hexact : R.Exact) (h : Changes R r s s')
    (hop : ∀ c dateFrom dateTo, r.op ≠ .generateInvoice c dateFrom dateTo) (id : Uuid) :
    InvoiceKept (s.invoices.find? id) (s'.invoices.find? id) := by
  refine Changes.induction (I := fun s₁ => InvoiceKept (s.invoices.find? id) (s₁.invoices.find? id))
    h (InvoiceKept.refl _) fun s₁ s₂ hs₁ hchange => hs₁.trans ?_
  have hsame : s₂.invoices = s₁.invoices →
      InvoiceKept (s₁.invoices.find? id) (s₂.invoices.find? id) := by
    intro heq
    rw [heq]
    exact InvoiceKept.refl _
  cases hchange.kind with
  | order _ _ _ _ _ _ _ _ hinvoices => exact hsame hinvoices
  | cancelled _ _ _ _ _ _ hinvoices => exact hsame hinvoices
  | priceSet _ _ _ _ _ _ _ _ hinvoices => exact hsame hinvoices
  | priceRemoved _ _ _ _ _ _ _ _ _ hinvoices => exact hsame hinvoices
  | billed _ c dateFrom dateTo _ hgenerate => exact absurd hgenerate (hop c dateFrom dateTo)
  | invoiceSet j i data hrow hinvoices hedge =>
    rw [hinvoices, Table.find?_put]
    split
    · next heq =>
      rw [heq, hrow]
      exact .some (sameBill_of_set (hedge hexact))
    · exact InvoiceKept.refl _
  | other _ _ _ hinvoices => exact hsame hinvoices

end Kept

/-! ## Runs -/

/-- An invoice is the one of a bill. -/
structure IsFor (i : Invoice) (b : Bill) : Prop where
  /-- The contract. -/
  contractId_eq : i.contractId = b.contractId
  /-- First day. -/
  periodFrom_eq : i.periodFrom = b.periodFrom
  /-- Last day. -/
  periodTo_eq : i.periodTo = b.periodTo
  /-- Its amount adds up the orders of the bill. -/
  amount_eq : i.amount = b.amount
  /-- It is not archived. -/
  isActive_eq : i.isActive = true

theorem IsFor.sameBill {i i' : Invoice} {b : Bill} (h : IsFor i b) (hsame : SameBill i i') :
    IsFor i' b := by
  constructor
  · exact hsame.contractId_eq.trans h.contractId_eq
  · exact hsame.periodFrom_eq.trans h.periodFrom_eq
  · exact hsame.periodTo_eq.trans h.periodTo_eq
  · exact hsame.amount_eq.trans h.amount_eq
  · exact hsame.isActive_eq.trans h.isActive_eq

/-- Two invoices that stand are of different contracts or periods. -/
def PeriodsDiffer (i i' : Invoice) : Prop :=
  i.status ≠ .cancelled → i'.status ≠ .cancelled → i.contractId = i'.contractId →
    i.periodFrom = i'.periodFrom → i.periodTo ≠ i'.periodTo

/-- What was billed before is older than what is stored. -/
structure Earlier (b : Bill) (s : Db) : Prop where
  /-- Periods have more than one day. -/
  period : b.periodFrom < b.periodTo
  /-- All orders were active. -/
  active : AllActive b.state
  /-- What billing has read of them stays. -/
  lasting : Lasting b.state s

/-- The bills of a run agree with the invoices. -/
structure BillsKept (bs : List Bill) (s : Db) : Prop where
  /-- The orders are in order. -/
  ordersOk : OrdersOk s
  /-- All orders are active. -/
  active : AllActive s
  /-- Every bill has its invoice. -/
  recorded : ∀ b ∈ bs, ∃ i, s.invoices.find? b.invoice = some i ∧ IsFor i b
  /-- Every invoice has its bill. -/
  complete : ∀ id i, s.invoices.find? id = some i → ∃ b ∈ bs, b.invoice = id
  /-- Bills are of different invoices. -/
  nodup : (bs.map Bill.invoice).Nodup
  /-- No two invoices of a contract that stand have one period. -/
  differ : ∀ id i id' i', s.invoices.find? id = some i → s.invoices.find? id' = some i' →
    id ≠ id' → PeriodsDiffer i i'
  /-- Bills are older than the state. -/
  earlier : ∀ b ∈ bs, Earlier b s

section Run

variable {bs : List Bill} {r : Request} {s s' : Db}

/-- A request that generates no invoice adds no bill. -/
theorem billOf_eq_none (hop : ∀ c dateFrom dateTo, r.op ≠ .generateInvoice c dateFrom dateTo) :
    billOf r s = none := by
  unfold billOf
  split
  · next c dateFrom dateTo _ heq _ => exact absurd heq (hop c dateFrom dateTo)
  · rfl

theorem BillsKept.invoice_active (h : BillsKept bs s) {id : Uuid} {i : Invoice}
    (hi : s.invoices.find? id = some i) : i.isActive = true := by
  obtain ⟨b, hb, rfl⟩ := h.complete id i hi
  obtain ⟨i', hi', hfor⟩ := h.recorded b hb
  cases hi.symm.trans hi'
  exact hfor.isActive_eq

/-- Changes that keep what invoices bill keep the agreement. -/
theorem BillsKept.changes (h : BillsKept bs s) (hchanges : Changes Regime.serial r s s')
    (hactive : AllActive s')
    (hinvoices : ∀ id, InvoiceKept (s.invoices.find? id) (s'.invoices.find? id)) :
    BillsKept bs s' := by
  have hback : ∀ id i', s'.invoices.find? id = some i' →
      ∃ i, s.invoices.find? id = some i ∧ SameBill i i' := by
    intro id i' hi'
    have hkept := hinvoices id
    rw [hi'] at hkept
    cases hi : s.invoices.find? id with
    | none =>
      rw [hi] at hkept
      cases hkept
    | some i =>
      rw [hi] at hkept
      cases hkept with
      | some hsame => exact ⟨i, rfl, hsame⟩
  refine ⟨hchanges.ordersOk h.ordersOk, hactive, fun b hb => ?_, fun id i' hi' => ?_, h.nodup,
    fun id i id' i' hi hi' hne => ?_, fun b hb => ?_⟩
  · obtain ⟨i, hi, hfor⟩ := h.recorded b hb
    have hkept := hinvoices b.invoice
    rw [hi] at hkept
    cases hi' : s'.invoices.find? b.invoice with
    | none =>
      rw [hi'] at hkept
      cases hkept
    | some i' =>
      rw [hi'] at hkept
      cases hkept with
      | some hsame => exact ⟨i', rfl, hfor.sameBill hsame⟩
  · obtain ⟨i, hi, -⟩ := hback id i' hi'
    exact h.complete id i hi
  · obtain ⟨j, hj, hsame⟩ := hback id i hi
    obtain ⟨j', hj', hsame'⟩ := hback id' i' hi'
    intro hstands hstands' hcontract hfrom hto
    refine h.differ id j id' j' hj hj' hne (fun hcancelled => hstands (hsame.cancelled hcancelled))
      (fun hcancelled => hstands' (hsame'.cancelled hcancelled)) ?_ ?_ ?_
    · rw [← hsame.contractId_eq, ← hsame'.contractId_eq, hcontract]
    · rw [← hsame.periodFrom_eq, ← hsame'.periodFrom_eq, hfrom]
    · rw [← hsame.periodTo_eq, ← hsame'.periodTo_eq, hto]
  · obtain ⟨hperiod, hactive, hlasting⟩ := h.earlier b hb
    exact ⟨hperiod, hactive, hlasting.trans (lasting_of_changes hchanges)⟩

/-- A new invoice of a period that no other invoice has keeps the agreement. -/
theorem BillsKept.generate (h : BillsKept bs s) {b : Bill} {i : Invoice} (hstate : b.state = s)
    (hperiod : b.periodFrom < b.periodTo) (hfresh : s.invoices.find? b.invoice = none)
    (hfor : IsFor i b)
    (hunique : (s.invoices.select fun _ i => i.contractId = b.contractId &&
      i.periodFrom = b.periodFrom && i.periodTo = b.periodTo && i.status ≠ .cancelled &&
        i.isActive) = []) :
    BillsKept (bs ++ [b]) (s.put (.invoice b.invoice) (some i)) := by
  have hself : (s.put (.invoice b.invoice) (some i)).invoices.find? b.invoice = some i :=
    Table.find?_put_self _ _ _
  have hother : ∀ id, id ≠ b.invoice →
      (s.put (.invoice b.invoice) (some i)).invoices.find? id = s.invoices.find? id :=
    fun id hid => Table.find?_put_ne _ hid _
  have hlasting : Lasting s (s.put (.invoice b.invoice) (some i)) := Lasting.refl s
  -- the check of the period has found no invoice that stands
  have hnew : ∀ id i', s.invoices.find? id = some i' → PeriodsDiffer i i' := by
    intro id i' hi' _ hstands hcontract hfrom hto
    have hmem : i' ∈ s.invoices.select fun _ i => i.contractId = b.contractId &&
        i.periodFrom = b.periodFrom && i.periodTo = b.periodTo && i.status ≠ .cancelled &&
          i.isActive := by
      refine (Table.mem_select_iff _ _ _).mpr ⟨id, hi', ?_⟩
      simp only [Bool.and_eq_true, decide_eq_true_eq]
      refine ⟨⟨⟨⟨?_, ?_⟩, ?_⟩, hstands⟩, h.invoice_active hi'⟩
      · rw [← hcontract, hfor.contractId_eq]
      · rw [← hfrom, hfor.periodFrom_eq]
      · rw [← hto, hfor.periodTo_eq]
    rw [hunique] at hmem
    cases hmem
  have hne : ∀ b' ∈ bs, b'.invoice ≠ b.invoice := by
    intro b' hb' heq
    obtain ⟨i', hi', -⟩ := h.recorded b' hb'
    rw [heq, hfresh] at hi'
    cases hi'
  refine ⟨h.ordersOk, h.active, fun b' hb' => ?_, fun id i' hi' => ?_, ?_,
    fun id j id' j' hj hj' hid => ?_, fun b' hb' => ?_⟩
  · rcases List.mem_append.mp hb' with hb' | hb'
    · rw [hother _ (hne b' hb')]
      exact h.recorded b' hb'
    · rw [List.mem_singleton.mp hb']
      exact ⟨i, hself, hfor⟩
  · by_cases hid : id = b.invoice
    · exact ⟨b, List.mem_append_right _ List.mem_cons_self, hid.symm⟩
    · rw [hother id hid] at hi'
      obtain ⟨b', hb', hinvoice⟩ := h.complete id i' hi'
      exact ⟨b', List.mem_append_left _ hb', hinvoice⟩
  · rw [List.map_append, List.map_singleton, List.nodup_append]
    refine ⟨h.nodup, List.nodup_singleton _, fun id hid id' hid' => ?_⟩
    obtain ⟨b', hb', rfl⟩ := List.mem_map.mp hid
    rw [List.mem_singleton.mp hid']
    exact hne b' hb'
  · by_cases hnewest : id = b.invoice
    · rw [hnewest, hself] at hj
      cases hj
      rw [hother id' fun heq => hid (hnewest.trans heq.symm)] at hj'
      exact hnew id' j' hj'
    · rw [hother id hnewest] at hj
      by_cases hnewest' : id' = b.invoice
      · rw [hnewest', hself] at hj'
        cases hj'
        intro hstands hstands' hcontract hfrom hto
        exact hnew id j hj hstands' hstands hcontract.symm hfrom.symm hto.symm
      · rw [hother id' hnewest'] at hj'
        exact h.differ id j id' j' hj hj' hid
  · rcases List.mem_append.mp hb' with hb' | hb'
    · obtain ⟨hperiod, hactive, hbefore⟩ := h.earlier b' hb'
      exact ⟨hperiod, hactive, hbefore.trans hlasting⟩
    · rw [List.mem_singleton.mp hb']
      refine ⟨hperiod, ?_, ?_⟩ <;> rw [hstate]
      · exact h.active
      · exact hlasting

/-- Every request keeps the agreement. -/
theorem BillsKept.served (h : BillsKept bs s) (r : Request) :
    BillsKept (bs ++ (billOf r s).toList) (serve (program r) s) := by
  have hlax : Regime.Lax (S := schema) Regime.serial := Regime.serial_lax
  have hexact : Regime.Exact (S := schema) Regime.serial := Regime.serialAsserting_exact _
  cases hrun : (program r).run s with
  | error e =>
    have hnone : billOf r s = none := by
      unfold billOf
      rw [hrun]
      split
      · next hok => cases hok
      · rfl
    rw [hnone, serve, hrun]
    exact (List.append_nil bs).symm ▸ h
  | ok result =>
    obtain ⟨u, s'⟩ := result
    have hserve : serve (program r) s = s' := by rw [serve, hrun]
    have hactive : AllActive s' := wp_serial_run (Q := fun _ s' => AllActive s')
      (program_allActive Regime.serial_sound hlax h.active r) hrun
    have hchanges : Changes Regime.serial r s s' :=
      wp_serial_run (Q := fun _ s' => Changes Regime.serial r s s')
        (program_changes Tame.serial h.ordersOk fun s₁ _ => releasable_of_lax hlax s₁) hrun
    rw [hserve]
    by_cases hop : ∃ c dateFrom dateTo, r.op = .generateInvoice c dateFrom dateTo
    · obtain ⟨c, dateFrom, dateTo, hop⟩ := hop
      have hbill : billOf r s = some ⟨r.env.uuid 0 0, c, dateFrom, dateTo, r.env.now, s⟩ := by
        unfold billOf
        rw [hop, hrun]
      have hprogram : program r = generateInvoice r.env c dateFrom dateTo := by
        rw [program, hop]
      rw [hprogram] at hrun
      rw [hbill]
      refine wp_serial_run (Q := fun _ s' => BillsKept (bs ++ [_]) s')
        (wp_generateInvoice Tame.serial fun i hperiod hfresh hdata hamount hunique => ?_) hrun
      obtain ⟨hcontract, hfrom, hto, -, hinvoice⟩ := hdata
      refine h.generate rfl hperiod hfresh ⟨hcontract, hfrom, hto, ?_, hinvoice⟩
        (hunique hexact)
      rw [hamount hexact, amount_eq]
    · have hop : ∀ c dateFrom dateTo, r.op ≠ .generateInvoice c dateFrom dateTo :=
        fun c dateFrom dateTo heq => hop ⟨c, dateFrom, dateTo, heq⟩
      rw [billOf_eq_none hop]
      have hinvoices := invoices_of_changes hexact hchanges hop
      exact (List.append_nil bs).symm ▸ h.changes hchanges hactive hinvoices

end Run

theorem fresh_billsKept (s : Db) : BillsKept [] (fresh s) where
  ordersOk id o ho := absurd ho (by simp [fresh])
  active id o ho := absurd ho (by simp [fresh])
  recorded b hb := absurd hb List.not_mem_nil
  complete id i hi := absurd hi (by simp [fresh])
  nodup := List.nodup_nil
  differ id i id' i' hi := absurd hi (by simp [fresh])
  earlier b hb := absurd hb List.not_mem_nil

/-- The bills of every serial run agree with the invoices. -/
theorem after_billsKept (s : Db) (rs : List Request) :
    BillsKept (bills rs (fresh s)) (after rs (fresh s)) := by
  induction rs using List.reverseRecOn with
  | nil => exact fresh_billsKept s
  | append_singleton rs r ih =>
    rw [bills_concat, after_concat]
    exact ih.served r

end Munavvar.Billing
