import Munavvar.ContractEffects
import Munavvar.ReadCommitted

/-!
# Settlement happens once

An order is settled by the step that makes it delivered or picked up, and no
later step leaves that status. In every interleaving the ledger therefore holds
the debt and the payment of a settled order once, and nothing of any other.
-/

namespace Munavvar.SettlementOnce

open Munavvar.KeyedTable
open Munavvar.Transaction
open Munavvar.Transaction.Prog
open Munavvar.ReadCommitted
open Munavvar.Database
open Munavvar.Statements
open Munavvar.StockLedger
open Munavvar.OrderQueries
open Munavvar.Fulfillment
open Munavvar.Operations
open Munavvar.OrderChanges
open Munavvar.ContractEffects

/-! ## Postings -/

/-- A transaction as settlement posts it. -/
structure Posting where
  /-- The charged account. -/
  fromId : Uuid
  /-- The credited account. -/
  toId : Uuid
  /-- The amount. -/
  amount : ℤ
  /-- The status at creation. -/
  status : TransactionStatus
  deriving DecidableEq, Repr

/-- The posting of a transaction. -/
def posting (x : FinancialTransaction) : Posting := ⟨x.fromId, x.toId, x.amount, x.status⟩

/-- What has been posted for an order. -/
def posted (id : Uuid) (s : Db) : List Posting :=
  (s.transactions.select fun _ x => x.orderId = some id).map posting

/-- The payment that goes with an order. -/
inductive Payment (d : Directory) (o : Order) (client : Account) : List Posting → Prop
  /-- Cash of a delivery goes to the courier. -/
  | courier {courierId : Uuid} {courier : Account} (hmethod : o.paymentMethod = .cash)
      (hsale : o.saleType = .delivery) (hid : o.courierId = some courierId)
      (haccount : d.courierAccount courierId = some courier) :
    Payment d o client [⟨client.id, courier.id, o.totalAmount, .completed⟩]
  /-- Cash of a pickup goes to the cash desk. -/
  | cashDesk {cash : Account} (hmethod : o.paymentMethod = .cash)
      (hsale : o.saleType = .warehousePickup) (haccount : d.systemCashAccount = some cash) :
    Payment d o client [⟨client.id, cash.id, o.totalAmount, .completed⟩]
  /-- A card transfer has to be verified. -/
  | card {card : Account} (hmethod : o.paymentMethod = .card)
      (haccount : d.systemCardAccount = some card) :
    Payment d o client [⟨client.id, card.id, o.totalAmount, .pending⟩]
  /-- A contract is invoiced. -/
  | contract (hmethod : o.paymentMethod = .contract) : Payment d o client []

/-- The debt of the client and the payment, each once, and nothing else. -/
def SettledBy (d : Directory) (o : Order) (l : List Posting) : Prop :=
  ∃ client revenue payment, d.clientAccount o.clientId = some client ∧
    d.systemRevenueAccount = some revenue ∧ Payment d o client payment ∧
    l = ⟨revenue.id, client.id, o.totalAmount, .completed⟩ :: payment

theorem payment_of_delivery {env : Env} {d : Directory} {id : Uuid} {o : Order} {client : Account}
    {rows : List FinancialTransaction} (hsale : o.saleType = .delivery)
    (hcourier : o.courierId.isSome = true) (h : deliveryPayment env id o d client = .ok rows) :
    Payment d o client (rows.map posting) := by
  unfold deliveryPayment cardPayment at h
  split at h
  · next courierId hmethod hid =>
    split at h
    · cases h
    · next courier haccount =>
      cases h
      exact .courier hmethod hsale hid haccount
  · next hmethod hid =>
    rw [hid] at hcourier
    cases hcourier
  · next hmethod =>
    split at h
    · cases h
    · next card haccount =>
      cases h
      exact .card hmethod haccount
  · next hmethod =>
    cases h
    exact .contract hmethod

theorem payment_of_pickup {env : Env} {d : Directory} {id : Uuid} {o : Order} {client : Account}
    {rows : List FinancialTransaction} (hsale : o.saleType = .warehousePickup)
    (h : pickupPayment env id o d client = .ok rows) : Payment d o client (rows.map posting) := by
  unfold pickupPayment cardPayment at h
  split at h
  · next hmethod =>
    split at h
    · cases h
    · next cash haccount =>
      cases h
      exact .cashDesk hmethod hsale haccount
  · next hmethod =>
    split at h
    · cases h
    · next card haccount =>
      cases h
      exact .card hmethod haccount
  · next hmethod =>
    cases h
    exact .contract hmethod

/-- Every transaction of a payment names the order and its total. -/
theorem payment_rows {env : Env} {d : Directory} {id : Uuid} {o : Order} {client : Account}
    {rows : List FinancialTransaction} (h : deliveryPayment env id o d client = .ok rows ∨
      pickupPayment env id o d client = .ok rows) : ∀ x ∈ rows, x.orderId = some id := by
  unfold deliveryPayment pickupPayment cardPayment at h
  rcases h with h | h <;> (repeat' split at h) <;> cases h <;> simp [settlementTransaction]

/-- A settlement posts the debt and the payment under the order's identifier. -/
theorem settledBy_of_settlement {env : Env} {d : Directory} {id : Uuid} {o : Order}
    {rows : List FinancialTransaction} (h : Settlement env d id o rows)
    (hcourier : o.saleType = .delivery → o.courierId.isSome = true) :
    SettledBy d o (rows.map posting) ∧ ∀ x ∈ rows, x.orderId = some id := by
  obtain ⟨client, revenue, payments, reason, hclient, hrevenue, hpayments, rfl⟩ := h
  cases hsale : o.saleType with
  | delivery =>
    rw [hsale] at hpayments
    refine ⟨⟨client, revenue, _, hclient, hrevenue,
      payment_of_delivery hsale (hcourier hsale) hpayments, rfl⟩, ?_⟩
    exact List.forall_mem_cons.mpr ⟨rfl, payment_rows (.inl hpayments)⟩
  | warehousePickup =>
    rw [hsale] at hpayments
    refine ⟨⟨client, revenue, _, hclient, hrevenue, payment_of_pickup hsale hpayments, rfl⟩, ?_⟩
    exact List.forall_mem_cons.mpr ⟨rfl, payment_rows (.inr hpayments)⟩

/-! ## Final statuses -/

/-- The statuses that are never left. -/
def isFinal (status : OrderStatus) : Bool :=
  status = .delivered || status = .pickupCompleted || status = .cancelled

/-- A step from a final status changes neither the status nor what a settlement reads. -/
theorem step_of_final {R : Regime schema} {r : Request} {s : Db} {id : Uuid} {o new : Order}
    (h : OrderStep R r s id (some o) new) (hfinal : isFinal o.status = true) :
    new.status = o.status ∧ new.clientId = o.clientId ∧ new.courierId = o.courierId ∧
      new.paymentMethod = o.paymentMethod ∧ new.saleType = o.saleType ∧
      new.totalAmount = o.totalAmount ∧ new.items = o.items := by
  cases h with
  | lineAdded _ hstatus => rw [hstatus] at hfinal; cases hfinal
  | lineRemoved hstatus => rw [hstatus] at hfinal; cases hfinal
  | assigned hstatus => rcases hstatus with hstatus | hstatus <;> rw [hstatus] at hfinal <;> cases hfinal
  | moved hstatus =>
    rcases hstatus with rfl | ⟨-, ⟨hstatus, -⟩ | ⟨hstatus, -⟩⟩
    · exact ⟨rfl, rfl, rfl, rfl, rfl, rfl, rfl⟩
    · rw [hstatus] at hfinal
      cases hfinal
    · rw [hstatus] at hfinal
      cases hfinal
  | cancelled hstatus =>
    have hnot : ∀ status ∈ [OrderStatus.new, .assigned, .inTransit, .arrived],
        isFinal status = false := by decide
    rw [hnot _ hstatus] at hfinal
    cases hfinal
  | delivered hstatus => rw [hstatus] at hfinal; cases hfinal
  | pickedUp hstatus => rw [hstatus] at hfinal; cases hfinal

/-- A delivery has a courier. -/
theorem step_courier {R : Regime schema} {r : Request} {s : Db} {id : Uuid} {old : Option Order}
    {new : Order} (h : OrderStep R r s id old new) (hold : ¬ old.any isSettled = true)
    (hnew : isSettled new = true) (hsale : new.saleType = .delivery) :
    new.courierId.isSome = true := by
  cases h with
  | delivered _ _ hcourier => exact hcourier
  | sold _ hsale' => rw [hsale'] at hsale; cases hsale
  | pickedUp _ hsale' => exact absurd (hsale'.symm.trans hsale) (by simp)
  | placed hstatus => rw [isSettled, hstatus] at hnew; cases hnew
  | lineAdded _ hstatus => rw [isSettled] at hnew; simp [hstatus] at hnew
  | lineRemoved hstatus => rw [isSettled] at hnew; simp [hstatus] at hnew
  | assigned => cases hnew
  | cancelled => cases hnew
  | moved hstatus =>
    rcases hstatus with rfl | ⟨-, ⟨-, rfl⟩ | ⟨-, rfl⟩⟩
    · exact absurd hnew hold
    · cases hnew
    · cases hnew

/-! ## The invariant -/

/-- The ledger agrees with the statuses of the orders. -/
structure Settled (s : Db) : Prop where
  /-- A settled order has been settled once. -/
  settled : ∀ id o, s.orders.find? id = some o → isSettled o = true →
    SettledBy s.directory o (posted id s)
  /-- Nothing has been posted for any other identifier. -/
  unsettled : ∀ id, ¬ (s.orders.find? id).any isSettled = true → posted id s = []

section Invariant

variable {R : Regime schema} {r : Request} {s s' : Db}

/-- What is appended under another order's identifier is not seen. -/
theorem posted_of_appended {rows : List FinancialTransaction}
    (h : Appended s.transactions s'.transactions rows) (id : Uuid) :
    posted id s' =
      posted id s ++ (rows.filter fun x => decide (x.orderId = some id)).map posting := by
  rw [posted, posted, h fun x => decide (x.orderId = some id), List.map_append]

/-- The payment depends on what the order says about it. -/
theorem SettledBy.congr {d : Directory} {o new : Order} {l : List Posting} (h : SettledBy d o l)
    (hclient : new.clientId = o.clientId) (hcourier : new.courierId = o.courierId)
    (hmethod : new.paymentMethod = o.paymentMethod) (hsale : new.saleType = o.saleType)
    (htotal : new.totalAmount = o.totalAmount) : SettledBy d new l := by
  obtain ⟨client, revenue, payment, haccount, hrevenue, hpayment, rfl⟩ := h
  refine ⟨client, revenue, payment, hclient ▸ haccount, hrevenue, ?_, by rw [htotal]⟩
  cases hpayment with
  | courier hm hs hid hc => rw [← htotal]; exact .courier (hmethod ▸ hm) (hsale ▸ hs) (hcourier ▸ hid) hc
  | cashDesk hm hs hc => rw [← htotal]; exact .cashDesk (hmethod ▸ hm) (hsale ▸ hs) hc
  | card hm hc => rw [← htotal]; exact .card (hmethod ▸ hm) hc
  | contract hm => exact .contract (hmethod ▸ hm)

theorem isFinal_of_isSettled {o : Order} (h : isSettled o = true) : isFinal o.status = true := by
  rw [isFinal, Bool.or_eq_true]
  exact .inl h

/-- A step of one order posts what belongs to it. -/
theorem Settled.order (h : Settled s) {id : Uuid} {new : Order} {rows : List FinancialTransaction}
    (hstep : OrderStep R r s id (s.orders.find? id) new)
    (horders : s.orders.Written s'.orders id (some new))
    (hrows : Postings r.env s.directory id (s.orders.find? id) new rows)
    (hledger : Appended s.transactions s'.transactions rows)
    (hdirectory : s'.directory = s.directory) : Settled s' := by
  have hnamed : ∀ x ∈ rows, x.orderId = some id := by
    unfold Postings at hrows
    split at hrows
    · next hnew =>
      exact (settledBy_of_settlement hrows fun hsale =>
        step_courier hstep hnew.2 hnew.1 hsale).2
    · rw [hrows]
      exact fun x hx => absurd hx List.not_mem_nil
  have hother : ∀ j, j ≠ id → posted j s' = posted j s := by
    intro j hj
    have hnone : (rows.filter fun x => decide (x.orderId = some j)) = [] := by
      rw [List.filter_eq_nil_iff]
      intro x hx
      rw [hnamed x hx]
      simpa using fun heq : id = j => hj heq.symm
    rw [posted_of_appended hledger, hnone, List.map_nil, List.append_nil]
  have hown : posted id s' = posted id s ++ rows.map posting := by
    have hall : (rows.filter fun x => decide (x.orderId = some id)) = rows := by
      rw [List.filter_eq_self]
      exact fun x hx => decide_eq_true (hnamed x hx)
    rw [posted_of_appended hledger, hall]
  have hnew := horders.find?_self
  -- the order itself is settled now, was settled before, or is not settled
  by_cases hsettled : isSettled new = true
  · have hownSettled : SettledBy s.directory new (posted id s') := by
      by_cases hold : (s.orders.find? id).any isSettled = true
      · obtain ⟨o, ho, hosettled⟩ := (Option.any_eq_true _ _).mp hold
        rw [ho] at hstep
        obtain ⟨-, hclient, hcourier, hmethod, hsale, htotal, -⟩ :=
          step_of_final hstep (isFinal_of_isSettled hosettled)
        rw [Postings, if_neg fun hboth => hboth.2 hold] at hrows
        rw [hown, hrows, List.map_nil, List.append_nil]
        exact (h.settled id o ho hosettled).congr hclient hcourier hmethod hsale htotal
      · rw [Postings, if_pos ⟨hsettled, hold⟩] at hrows
        rw [hown, h.unsettled id hold, List.nil_append]
        exact (settledBy_of_settlement hrows fun hsale => step_courier hstep hold hsettled hsale).1
    refine ⟨fun j o ho hosettled => ?_, fun j hj => ?_⟩
    · rw [hdirectory]
      by_cases hid : j = id
      · subst hid
        cases hnew.symm.trans ho
        exact hownSettled
      · rw [hother j hid]
        exact h.settled j o (horders.find?_ne hid ▸ ho) hosettled
    · have hid : j ≠ id := by
        rintro rfl
        rw [hnew] at hj
        exact hj hsettled
      rw [hother j hid]
      exact h.unsettled j (horders.find?_ne hid ▸ hj)
  · have hold : ¬ (s.orders.find? id).any isSettled = true := by
      intro hold
      obtain ⟨o, ho, hosettled⟩ := (Option.any_eq_true _ _).mp hold
      rw [ho] at hstep
      have hsame := (step_of_final hstep (isFinal_of_isSettled hosettled)).1
      refine hsettled ?_
      rw [isSettled, hsame]
      exact hosettled
    rw [Postings, if_neg fun hboth => hsettled hboth.1] at hrows
    have hown : posted id s' = [] := by
      rw [hown, hrows, List.map_nil, List.append_nil]
      exact h.unsettled id hold
    refine ⟨fun j o ho hosettled => ?_, fun j hj => ?_⟩
    · have hid : j ≠ id := by
        rintro rfl
        cases hnew.symm.trans ho
        exact hsettled hosettled
      rw [hdirectory, hother j hid]
      exact h.settled j o (horders.find?_ne hid ▸ ho) hosettled
    · by_cases hid : j = id
      · rw [hid]
        exact hown
      · rw [hother j hid]
        exact h.unsettled j (horders.find?_ne hid ▸ hj)

/-- Orders that are cancelled together were not settled before. -/
theorem Settled.change (h : Settled s) (hchange : Change R r s s') : Settled s' := by
  have hkept : s'.orders = s.orders → s'.transactions = s.transactions → Settled s' := by
    intro horders hledger
    refine ⟨fun id o ho hsettled => ?_, fun id hid => ?_⟩
    · rw [hchange.directory_eq, posted, hledger]
      exact h.settled id o (horders ▸ ho) hsettled
    · rw [posted, hledger]
      exact h.unsettled id (horders ▸ hid)
  cases hchange.kind with
  | order id new rows hstep horders hquota hrows hledger hinvoices =>
    exact h.order hstep horders hrows hledger hchange.directory_eq
  | cancelled xs hnodup hstep horders hquota hledger hinvoices =>
    -- an order of the batch is not settled now and was not before
    have hbatch : ∀ id, s'.orders.find? id = s.orders.find? id ∨
        ¬ (s'.orders.find? id).any isSettled = true ∧ ¬ (s.orders.find? id).any isSettled = true := by
      intro id
      rw [horders id]
      cases hlookup : (xs.map fun x => (x.1, x.2.2)).lookup id with
      | none => exact .inl rfl
      | some new =>
        obtain ⟨l₁, l₂, hsplit, -⟩ := List.lookup_eq_some_iff.mp hlookup
        have hmem : (id, new) ∈ xs.map fun x => (x.1, x.2.2) :=
          hsplit ▸ List.mem_append_right _ List.mem_cons_self
        obtain ⟨x, hx, heq⟩ := List.mem_map.mp hmem
        cases heq
        obtain ⟨hold, hstatus, -, hx⟩ := hstep x hx
        refine .inr ⟨?_, ?_⟩
        · rw [Option.some_or, Option.any_some, isSettled, hstatus]
          decide
        · rw [hold, Option.any_some]
          intro hsettled
          have hsame := (step_of_final hx (isFinal_of_isSettled hsettled)).1
          rw [isSettled, ← hsame, hstatus] at hsettled
          cases hsettled
    refine ⟨fun id o ho hsettled => ?_, fun id hid => ?_⟩
    · rw [hchange.directory_eq, posted, hledger]
      rcases hbatch id with hsame | ⟨hnot, -⟩
      · exact h.settled id o (hsame ▸ ho) hsettled
      · rw [ho] at hnot
        exact absurd hsettled hnot
    · rw [posted, hledger]
      rcases hbatch id with hsame | ⟨-, hnot⟩
      · exact h.unsettled id (hsame ▸ hid)
      · exact h.unsettled id hnot
  | priceSet _ _ _ _ _ _ horders hledger => exact hkept horders hledger
  | priceRemoved _ _ _ _ _ _ _ horders hledger => exact hkept horders hledger
  | billed _ _ _ _ _ _ _ _ _ _ _ _ horders _ hledger => exact hkept horders hledger
  | invoiceSet _ _ _ _ _ _ horders _ hledger => exact hkept horders hledger
  | other horders _ hledger => exact hkept horders hledger

/-- Orders in a final status keep it. -/
def FinalKept (s s' : Db) : Prop :=
  ∀ id o, s.orders.find? id = some o → isFinal o.status = true →
    ∃ o', s'.orders.find? id = some o' ∧ o'.status = o.status

theorem FinalKept.refl (s : Db) : FinalKept s s := fun _ o ho _ => ⟨o, ho, rfl⟩

theorem FinalKept.change {s₀ : Db} (h : FinalKept s₀ s) (hchange : Change R r s s') :
    FinalKept s₀ s' := by
  intro id o ho hfinal
  obtain ⟨o₁, ho₁, hstatus₁⟩ := h id o ho hfinal
  rcases hchange.order_cases id with hsame | ⟨new, hnew, hstep⟩
  · exact ⟨o₁, hsame ▸ ho₁, hstatus₁⟩
  · rw [ho₁] at hstep
    have hstatus := (step_of_final hstep (hstatus₁ ▸ hfinal)).1
    exact ⟨new, hnew, hstatus.trans hstatus₁⟩

end Invariant

theorem fresh_settled (s : Db) : Settled (fresh s) where
  settled id o ho := absurd ho (by simp [fresh])
  unsettled _ _ := rfl

/-- As one commit, every request keeps the ledger in agreement and final statuses as they are. -/
theorem program_settled {s : Db} (hs : OrdersOk s ∧ Settled s) (r : Request) :
    wp Regime.concurrent (program r) (fun _ s' => (OrdersOk s' ∧ Settled s') ∧ FinalKept s s')
      (fun _ => True) s := by
  have hlax : Regime.Lax (S := schema) Regime.concurrent := Regime.concurrentAssuming_lax _
  have hchanges := program_changes (r := r) (Tame.concurrentAssuming fun _ _ _ => True) hs.1
    fun s₁ _ => releasable_of_lax hlax s₁
  refine wp_mono _ hchanges (fun _ s' h => ⟨⟨h.ordersOk hs.1, ?_⟩, ?_⟩) fun _ he => he
  · exact h.induction hs.2 fun _ _ h₁ hchange => h₁.change hchange
  · exact h.induction (FinalKept.refl s) fun _ _ h₁ hchange => h₁.change hchange

/-- What has been posted for an order is its debt and its payment, each once, if
it is delivered or picked up, and nothing otherwise. -/
def SettledOnce (s : Db) : Prop :=
  ∀ id o, s.orders.find? id = some o →
    if o.status = .delivered ∨ o.status = .pickupCompleted then
      SettledBy s.directory o (posted id s)
    else posted id s = []

/-- In every interleaving each order is settled exactly once or not at all, and
no step leaves DELIVERED, PICKUP_COMPLETED or CANCELLED. -/
theorem settled_exactly_once (s : Db) {σ : Sys schema Request}
    (h : Reach program (fun _ _ _ => True) (Sys.init (fresh s)) σ) :
    SettledOnce σ.db ∧ ∀ a σ', σ.exec program a = some σ' → FinalKept σ.db σ'.db := by
  have hstart : OrdersOk (fresh s) ∧ Settled (fresh s) :=
    ⟨fun id o ho => absurd ho (by simp [fresh]), fresh_settled s⟩
  have hop : ∀ (r : Request) (s : Db), OrdersOk s ∧ Settled s →
      wp (Regime.concurrentAssuming fun _ _ _ => True) (program r)
        (fun _ s' => (OrdersOk s' ∧ Settled s') ∧ FinalKept s s') (fun _ => True) s :=
    fun r _ hs => program_settled hs r
  obtain ⟨⟨-, hsettled⟩, hfinal⟩ := h.committed (I := fun s : Db => OrdersOk s ∧ Settled s)
    (T := FinalKept) FinalKept.refl hop (Sys.init_explained _) hstart
  refine ⟨fun id o ho => ?_, fun a σ' hexec => hfinal a σ' ?_ hexec⟩
  · split
    · next hstatus => exact hsettled.settled id o ho (by simpa [isSettled] using hstatus)
    · next hstatus => exact hsettled.unsettled id (by simpa [ho, isSettled] using hstatus)
  · cases a with
    | step t => exact fun _ _ _ _ _ _ => trivial
    | _ => exact trivial

/-- Two deliveries of one order: the second waits for the first and settles nothing. -/
def sampleActions : List (ReadCommitted.Action Request) :=
  let steps (t n : ℕ) := List.replicate n (ReadCommitted.Action.step t)
  let alone (t n : ℕ) (op : Operation) : List (ReadCommitted.Action Request) :=
    [.start t (sampleRequest t t op)] ++ steps t n ++ [.commit t]
  let deliver : Operation := .updateStatus 10000 .delivered [] (some 6) none
  alone 0 6 (.createOrder 7 ⟨[⟨23, 2, two_pieces⟩], .cash, 5, false, none⟩) ++
  alone 1 5 (.assignCourier 10000 6) ++
  alone 2 3 (.updateStatus 10000 .inTransit [] (some 6) none) ++
  alone 3 3 (.updateStatus 10000 .arrived [] (some 6) none) ++
  [.start 4 (sampleRequest 4 4 deliver), .step 4, .start 5 (sampleRequest 5 5 deliver)] ++
  steps 4 33 ++ [.commit 4] ++ steps 5 3 ++ [.commit 5]

theorem settled_exactly_once_sample :
    ∃ σ, sampleActions.foldlM (Sys.exec program) (Sys.init (fresh sampleDb)) = some σ ∧
      posted 10000 σ.db = [⟨11, 15, 140, .completed⟩, ⟨15, 14, 140, .completed⟩] ∧
      SettledOnce σ.db := by
  have heval : (sampleActions.foldlM (Sys.exec program) (Sys.init (fresh sampleDb))).map
      (fun σ => posted 10000 σ.db) =
        some [⟨11, 15, 140, .completed⟩, ⟨15, 14, 140, .completed⟩] := by decide +kernel
  cases hrun : sampleActions.foldlM (Sys.exec program) (Sys.init (fresh sampleDb)) with
  | none => exact absurd (hrun ▸ heval) (by simp)
  | some σ =>
    rw [hrun, Option.map_some, Option.some.injEq] at heval
    exact ⟨σ, rfl, heval, (settled_exactly_once sampleDb (Reach.of_actions _ hrun)).1⟩

end Munavvar.SettlementOnce
