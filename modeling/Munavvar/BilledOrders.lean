import Munavvar.Billing

/-!
# Which invoices bill an order

An order is billed by the invoice of a period if it was created in the period
and delivered before the invoice was generated. So overlapping periods bill an
order twice, and an order that is delivered after the invoice of its period was
generated is billed by no invoice of a later period.
-/

namespace Munavvar.BilledOrders

open Munavvar.KeyedTable
open Munavvar.Transaction
open Munavvar.Transaction.Prog
open Munavvar.Database
open Munavvar.OrderService
open Munavvar.ContractService
open Munavvar.Operations
open Munavvar.OrderChanges
open Munavvar.Billing
open Munavvar.Intervals

/-- An order was delivered before the invoice was generated. -/
def delivered (b : Bill) (id : Uuid) : Bool := (b.state.orders.find? id).any isSettled

section Kept

variable {bs : List Bill} {s : Db} {b : Bill} {id : Uuid} {o : Order}

/-- Whether an order is on a bill can be seen from its contract, its creation and its delivery. -/
theorem includes_of_kept (h : BillsKept bs s) (hb : b ∈ bs) (ho : s.orders.find? id = some o) :
    b.includes id = true ↔ o.contractId = some b.contractId ∧ b.covers (dateOf o.createdAt) ∧
      delivered b id = true := by
  obtain ⟨-, hactive, hlasting⟩ := h.earlier b hb
  have hsame : ∀ o₀, b.state.orders.find? id = some o₀ → SameOrder o₀ o := by
    intro o₀ ho₀
    obtain ⟨o', ho', hsame⟩ := hlasting id o₀ ho₀
    cases ho.symm.trans ho'
    exact hsame
  rw [includes_iff]
  constructor
  · rintro ⟨o₀, ho₀, hbilled⟩
    obtain ⟨hcontract, hsettled, hdays, -⟩ := isDeliveredIn_iff.mp hbilled
    have hsame := hsame o₀ ho₀
    refine ⟨hsame.contractId_eq.trans hcontract, ?_, ?_⟩
    · rw [hsame.createdAt_eq]
      exact hdays
    · rw [delivered, ho₀]
      exact hsettled
  · rintro ⟨hcontract, hdays, hdelivered⟩
    obtain ⟨o₀, ho₀, hsettled⟩ := (Option.any_eq_true _ _).mp hdelivered
    have hsame := hsame o₀ ho₀
    refine ⟨o₀, ho₀, isDeliveredIn_iff.mpr ⟨?_, hsettled, ?_, hactive id o₀ ho₀⟩⟩
    · rw [← hsame.contractId_eq]
      exact hcontract
    · rw [← hsame.createdAt_eq]
      exact hdays

/-- The orders of a bill are stored with the totals that were added up. -/
theorem totals_of_kept (h : BillsKept bs s) (hb : b ∈ bs) {x : Uuid × Order} (hx : x ∈ b.orders) :
    ∃ o, s.orders.find? x.1 = some o ∧ o.totalAmount = x.2.totalAmount := by
  obtain ⟨hrow, hbilled⟩ := List.mem_filter.mp hx
  have hsettled := (isDeliveredIn_iff.mp hbilled).2.1
  obtain ⟨o, ho, hsame⟩ := (h.earlier b hb).lasting x.1 x.2 ((Table.mem_rows_iff _ _ _).mp hrow)
  exact ⟨o, ho, (hsame.settled hsettled).2⟩

/-- An order on a bill is stored. -/
theorem stored_of_includes (h : BillsKept bs s) (hb : b ∈ bs) (hid : b.includes id = true) :
    ∃ o, s.orders.find? id = some o := by
  obtain ⟨o₀, ho₀, -⟩ := (includes_iff b id).mp hid
  obtain ⟨o, ho, -⟩ := (h.earlier b hb).lasting id o₀ ho₀
  exact ⟨o, ho⟩

end Kept

/-! ## Double billing -/

/-- No order is on the bills of two invoices that stand. -/
def NeverTwice (bs : List Bill) (s : Db) : Prop :=
  ∀ b ∈ bs, ∀ b' ∈ bs, b.invoice ≠ b'.invoice → b.stands s = true → b'.stands s = true →
    ∀ id, ¬ (b.includes id = true ∧ b'.includes id = true)

/-- Which orders the amounts of the invoices add up. -/
structure BilledByPeriod (bs : List Bill) (s : Db) : Prop where
  /-- Every invoice has its bill, which its amount adds up. -/
  billed : ∀ id i, s.invoices.find? id = some i → ∃ b ∈ bs, b.invoice = id ∧ IsFor i b
  /-- Every bill has its invoice, and no two have the same. -/
  single : ∀ b ∈ bs, (∃ i, s.invoices.find? b.invoice = some i) ∧
    ∀ b' ∈ bs, b.invoice = b'.invoice → b = b'
  /-- The totals that are added up are those of the orders. -/
  totals : ∀ b ∈ bs, ∀ x ∈ b.orders, ∃ o, s.orders.find? x.1 = some o ∧
    o.totalAmount = x.2.totalAmount
  /-- Two invoices that stand bill an order only for different periods of one
  contract that both contain the day of its creation. -/
  twice : ∀ b ∈ bs, ∀ b' ∈ bs, b.invoice ≠ b'.invoice → b.stands s = true →
    b'.stands s = true → ∀ id, b.includes id = true → b'.includes id = true →
    b.contractId = b'.contractId ∧ (b.periodFrom ≠ b'.periodFrom ∨ b.periodTo ≠ b'.periodTo) ∧
      ∃ o, s.orders.find? id = some o ∧ b.covers (dateOf o.createdAt) ∧
        b'.covers (dateOf o.createdAt)

/-- In every serial run an order is billed twice only by overlapping periods. -/
theorem billed_twice_only_by_overlap (s : Db) (rs : List Request) :
    BilledByPeriod (bills rs (fresh s)) (after rs (fresh s)) := by
  have hkept := after_billsKept s rs
  constructor
  · intro id i hi
    obtain ⟨b, hb, rfl⟩ := hkept.complete id i hi
    obtain ⟨i', hi', hfor⟩ := hkept.recorded b hb
    cases hi.symm.trans hi'
    exact ⟨b, hb, rfl, hfor⟩
  · intro b hb
    constructor
    · obtain ⟨i, hi, -⟩ := hkept.recorded b hb
      exact ⟨i, hi⟩
    · exact fun b' hb' heq => List.inj_on_of_nodup_map hkept.nodup hb hb' heq
  · exact fun b hb x hx => totals_of_kept hkept hb hx
  · intro b hb b' hb' hne hstands hstands' id hid hid'
    obtain ⟨o, ho⟩ := stored_of_includes hkept hb hid
    obtain ⟨hcontract, hcovers, -⟩ := (includes_of_kept hkept hb ho).mp hid
    obtain ⟨hcontract', hcovers', -⟩ := (includes_of_kept hkept hb' ho).mp hid'
    have hsame : b.contractId = b'.contractId :=
      Option.some.inj (hcontract.symm.trans hcontract')
    refine ⟨hsame, ?_, o, ho, hcovers, hcovers'⟩
    obtain ⟨i, hi, hfor⟩ := hkept.recorded b hb
    obtain ⟨i', hi', hfor'⟩ := hkept.recorded b' hb'
    have hlive : i.status ≠ .cancelled := by
      rw [Bill.stands, hi] at hstands
      exact of_decide_eq_true hstands
    have hlive' : i'.status ≠ .cancelled := by
      rw [Bill.stands, hi'] at hstands'
      exact of_decide_eq_true hstands'
    have hdiffer := hkept.differ b.invoice i b'.invoice i' hi hi' hne hlive hlive'
    rw [hfor.contractId_eq, hfor'.contractId_eq, hfor.periodFrom_eq, hfor'.periodFrom_eq,
      hfor.periodTo_eq, hfor'.periodTo_eq] at hdiffer
    by_cases hfrom : b.periodFrom = b'.periodFrom
    · exact .inr (hdiffer hsame hfrom)
    · exact .inl hfrom

/-- The `n`-th request of a sample, made at the beginning of a day. -/
def onDay (n : ℕ) (day : ℤ) (op : Operation) : Request := sampleRequest n (day * dayLength) op

/-- Coffee is ordered by contract and is on its way. -/
def orderedCoffee : List Request :=
  [onDay 0 0 (.setPriceItem 31 23 60 10),
    onDay 1 5 (.createOrder 7 ⟨[⟨23, 5, five_pieces⟩], .contract, 5, false, none⟩),
    onDay 2 6 (.assignCourier 20000 6),
    onDay 3 6 (.updateStatus 20000 .inTransit [] (some 6) none),
    onDay 4 7 (.updateStatus 20000 .arrived [] (some 6) none)]

/-- It is delivered and billed for two periods that overlap. -/
def overlappingPeriods : List Request :=
  orderedCoffee ++ [onDay 5 7 (.updateStatus 20000 .delivered [] (some 6) none),
    onDay 6 31 (.generateInvoice 31 0 30), onDay 7 41 (.generateInvoice 31 5 40)]

theorem overlap_bills_twice :
    ¬ ∀ (s : Db) (rs : List Request), NeverTwice (bills rs (fresh s)) (after rs (fresh s)) := by
  intro hclaim
  have heval : (bills overlappingPeriods (fresh sampleDb)).map (fun b =>
      (b.invoice, b.stands (after overlappingPeriods (fresh sampleDb)), b.includes 20000)) =
      [(70000, true, true), (80000, true, true)] := by decide +kernel
  obtain ⟨b, bs, hbills, hb, hrest⟩ := List.map_eq_cons_iff.mp heval
  obtain ⟨b', bs', rfl, hb', -⟩ := List.map_eq_cons_iff.mp hrest
  simp only [Prod.mk.injEq] at hb hb'
  obtain ⟨hinvoice, hstands, hid⟩ := hb
  obtain ⟨hinvoice', hstands', hid'⟩ := hb'
  refine hclaim sampleDb overlappingPeriods b ?_ b' ?_ ?_ hstands hstands' 20000 ⟨hid, hid'⟩
  · rw [hbills]
    exact List.mem_cons_self
  · rw [hbills]
    exact List.mem_cons_of_mem _ List.mem_cons_self
  · rw [hinvoice, hinvoice']
    decide

/-! ## Consecutive periods -/

/-- Invoices of consecutive periods of a contract. -/
structure Plan (c : Uuid) (plan bs : List Bill) : Prop where
  /-- They were generated. -/
  generated : ∀ b ∈ plan, b ∈ bs
  /-- They are of the contract. -/
  contract : ∀ b ∈ plan, b.contractId = c
  /-- Each period begins right after the one before. -/
  consecutive : Consecutive Bill.periodFrom Bill.periodTo plan

/-- The invoice of the period in which an order was created bills it if it was
delivered before, and then no other invoice does; otherwise none does. -/
def BilledByOwnPeriod (plan : List Bill) (id : Uuid) (o : Order) : Prop :=
  ∃ b ∈ plan, b.covers (dateOf o.createdAt) ∧
    ((∃! b', b' ∈ plan ∧ b'.includes id = true) ↔ delivered b id = true) ∧
    (delivered b id = false → ∀ b' ∈ plan, b'.includes id = false)

/-- In every serial run, an order that was created in one of some consecutive
billed periods is on exactly one of their invoices if it was delivered before
the invoice of its own period was generated, and on none otherwise. -/
theorem billed_once_if_delivered_in_time (s : Db) (rs : List Request) {c : Uuid} {plan : List Bill}
    {first last : Bill} (hplan : Plan c plan (bills rs (fresh s)))
    (hfirst : plan.head? = some first) (hlast : plan.getLast? = some last) {id : Uuid} {o : Order}
    (ho : (after rs (fresh s)).orders.find? id = some o) (hcontract : o.contractId = some c)
    (hcreated : first.periodFrom ≤ dateOf o.createdAt ∧ dateOf o.createdAt ≤ last.periodTo) :
    BilledByOwnPeriod plan id o := by
  have hkept := after_billsKept s rs
  have hperiods : ∀ b ∈ plan, b.periodFrom ≤ b.periodTo := fun b hb =>
    le_of_lt (hkept.earlier b (hplan.generated b hb)).period
  have hincludes : ∀ b ∈ plan, b.includes id = true ↔
      b.covers (dateOf o.createdAt) ∧ delivered b id = true := by
    intro b hb
    rw [includes_of_kept hkept (hplan.generated b hb) ho, hplan.contract b hb]
    exact and_iff_right hcontract
  obtain ⟨b, hb, hcovers⟩ := hplan.consecutive.covers hfirst hlast hcreated.1 hcreated.2
  have hunique : ∀ b' ∈ plan, b'.includes id = true → b' = b := by
    intro b' hb' hid
    exact hplan.consecutive.unique hperiods hb' hb ((hincludes b' hb').mp hid).1 hcovers
  refine ⟨b, hb, hcovers, ⟨?_, fun hdelivered => ?_⟩, fun hlate b' hb' => ?_⟩
  · rintro ⟨b', ⟨hb', hid⟩, -⟩
    have hown := hunique b' hb' hid
    subst hown
    exact ((hincludes b' hb').mp hid).2
  · refine ⟨b, ⟨hb, (hincludes b hb).mpr ⟨hcovers, hdelivered⟩⟩, ?_⟩
    rintro b' ⟨hb', hid⟩
    exact hunique b' hb' hid
  · by_contra hid
    have hid : b'.includes id = true := by simpa using hid
    have hown := hunique b' hb' hid
    subst hown
    have hdelivered := ((hincludes b' hb').mp hid).2
    rw [hlate] at hdelivered
    cases hdelivered

/-- A contract that ends after two months. -/
def twoMonths : Db :=
  { sampleDb with
    contracts := ⟨[(31, ⟨7, "A", .active, 0, some 60, 10, true, none, none, none, none, none, none,
      []⟩)], by decide⟩ }

/-- Coffee is delivered in the month in which it was ordered; both months are billed. -/
def deliveredInTime : List Request :=
  orderedCoffee ++ [onDay 5 7 (.updateStatus 20000 .delivered [] (some 6) none),
    onDay 6 31 (.generateInvoice 31 0 30), onDay 7 61 (.generateInvoice 31 31 60)]

/-- What is to be seen of a bill. -/
def shown (id : Uuid) (b : Bill) : Uuid × Uuid × ℤ × ℤ × ℤ × Bool :=
  (b.invoice, b.contractId, b.periodFrom, b.periodTo, b.generatedAt / dayLength, b.includes id)

/-- Two invoices of consecutive months, each generated on the day after. -/
theorem plan_of_shown {bs : List Bill} {id i i' : Uuid} {x x' : Bool}
    (h : bs.map (shown id) = [(i, 31, 0, 30, 31, x), (i', 31, 31, 60, 61, x')]) :
    ∃ b b', bs = [b, b'] ∧ Plan 31 [b, b'] bs ∧ b.periodFrom = 0 ∧ b'.periodTo = 60 ∧
      b.includes id = x ∧ b'.includes id = x' ∧
      ∀ b'' ∈ [b, b'], (b''.periodTo + 1) * dayLength ≤ b''.generatedAt := by
  obtain ⟨b, bs, rfl, hb, hrest⟩ := List.map_eq_cons_iff.mp h
  obtain ⟨b', bs', rfl, hb', hnil⟩ := List.map_eq_cons_iff.mp hrest
  rw [List.map_eq_nil_iff] at hnil
  subst hnil
  simp only [shown, Prod.mk.injEq] at hb hb'
  obtain ⟨-, hcontract, hfrom, hto, hgenerated, hid⟩ := hb
  obtain ⟨-, hcontract', hfrom', hto', hgenerated', hid'⟩ := hb'
  have hnext : b'.periodFrom = b.periodTo + 1 := by omega
  refine ⟨b, b', rfl, ⟨fun b'' hb'' => hb'', fun b'' hb'' => ?_, ?_⟩, hfrom, hto', hid, hid',
    fun b'' hb'' => ?_⟩
  · rcases List.mem_pair.mp hb'' with rfl | rfl
    · exact hcontract
    · exact hcontract'
  · exact List.isChain_cons_cons.mpr ⟨hnext, List.isChain_singleton b'⟩
  · unfold dayLength at hgenerated hgenerated' ⊢
    rcases List.mem_pair.mp hb'' with rfl | rfl
    · rw [hto]
      omega
    · rw [hto']
      omega

theorem billed_once_if_delivered_in_time_sample :
    ∃ o, (after deliveredInTime (fresh twoMonths)).orders.find? 20000 = some o ∧
      (bills deliveredInTime (fresh twoMonths)).map (shown 20000) =
        [(70000, 31, 0, 30, 31, true), (80000, 31, 31, 60, 61, false)] ∧
      BilledByOwnPeriod (bills deliveredInTime (fresh twoMonths)) 20000 o := by
  have hshown : (bills deliveredInTime (fresh twoMonths)).map (shown 20000) =
      [(70000, 31, 0, 30, 31, true), (80000, 31, 31, 60, 61, false)] := by decide +kernel
  have horder : ((after deliveredInTime (fresh twoMonths)).orders.find? 20000).map
      (fun o => (o.contractId, dateOf o.createdAt)) = some (some 31, 5) := by decide +kernel
  obtain ⟨o, ho, hpair⟩ := Option.map_eq_some_iff.mp horder
  obtain ⟨hcontract, hday⟩ := Prod.mk.inj hpair
  obtain ⟨b, b', hbills, hplan, hfrom, hto, -⟩ := plan_of_shown hshown
  refine ⟨o, ho, hshown, ?_⟩
  have hcreated : b.periodFrom ≤ dateOf o.createdAt ∧ dateOf o.createdAt ≤ b'.periodTo := by omega
  rw [hbills]
  exact billed_once_if_delivered_in_time twoMonths deliveredInTime hplan rfl rfl ho hcontract hcreated

/-- If the life of a contract is billed by invoices of consecutive periods, each
generated after the end of its period, then every order of the contract that is
delivered before the last one is on exactly one of them. -/
def EveryDeliveryBilled (s : Db) (rs : List Request) : Prop :=
  ∀ c plan first last x, Plan c plan (bills rs (fresh s)) →
    (∀ b ∈ plan, (b.periodTo + 1) * dayLength ≤ b.generatedAt) →
    plan.head? = some first → plan.getLast? = some last →
    s.contracts.find? c = some x → first.periodFrom ≤ x.startDate →
    (∃ d, x.endDate = some d ∧ d ≤ last.periodTo) →
    ∀ id o, last.state.orders.find? id = some o → o.contractId = some c → isSettled o = true →
      ∃! b, b ∈ plan ∧ b.includes id = true

/-- Coffee is delivered after the invoice of the month in which it was ordered was generated. -/
def deliveredLate : List Request :=
  orderedCoffee ++ [onDay 5 31 (.generateInvoice 31 0 30),
    onDay 6 35 (.updateStatus 20000 .delivered [] (some 6) none),
    onDay 7 61 (.generateInvoice 31 31 60)]

theorem late_delivery_never_billed :
    ¬ ∀ (s : Db) (rs : List Request), EveryDeliveryBilled s rs := by
  intro hclaim
  have hshown : (bills deliveredLate (fresh twoMonths)).map (shown 20000) =
      [(60000, 31, 0, 30, 31, false), (80000, 31, 31, 60, 61, false)] := by decide +kernel
  have horder : ((bills deliveredLate (fresh twoMonths)).getLast?.bind fun b =>
      b.state.orders.find? 20000).map (fun o => (o.contractId, isSettled o)) =
        some (some 31, true) := by decide +kernel
  obtain ⟨b, b', hbills, hplan, hfrom, hto, hid, hid', hgenerated⟩ := plan_of_shown hshown
  rw [hbills] at horder
  obtain ⟨o, ho, hpair⟩ := Option.map_eq_some_iff.mp horder
  obtain ⟨hcontract, hsettled⟩ := Prod.mk.inj hpair
  obtain ⟨b'', ⟨hb'', hincluded⟩, -⟩ := hclaim twoMonths deliveredLate 31 [b, b'] b b' _ hplan
    hgenerated rfl rfl rfl (by rw [hfrom]) ⟨60, rfl, by rw [hto]⟩ 20000 o ho hcontract hsettled
  rcases List.mem_pair.mp hb'' with rfl | rfl
  · rw [hid] at hincluded
    cases hincluded
  · rw [hid'] at hincluded
    cases hincluded

end Munavvar.BilledOrders
