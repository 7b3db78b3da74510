import Munavvar.ClientEffects
import Munavvar.StatusLog

/-!
# Orders that are paid by contract

Placing an order by contract locks the client's active contract, takes the
prices from its price list and reserves the lines in its quota. The onboarding
of a client accepts any way of payment for the first order and looks no contract
up. In runs without a first order by contract, an order is paid by contract
exactly if it has one, on whose terms it was placed.
-/

namespace Munavvar.ContractPayment

open Munavvar.KeyedTable
open Munavvar.Transaction
open Munavvar.Transaction.Prog
open Munavvar.ReadCommitted
open Munavvar.Database
open Munavvar.Statements
open Munavvar.StockLedger
open Munavvar.OrderQueries
open Munavvar.OrderService
open Munavvar.Quota
open Munavvar.ClientService
open Munavvar.Operations (Request sampleDb sampleRequest)
open Munavvar.OrderChanges
open Munavvar.OrderEffects
open Munavvar.ContractEffects
open Munavvar.StockEffects
open Munavvar.ClientEffects
open Munavvar.Company
open Munavvar.StatusLog (noOrders newcomer)

/-! ## New orders -/

/-- An order was placed on the terms of a contract, and its lines were reserved. -/
structure PlacedOnTerms (s s' : Db) (o : Order) (c : Uuid) : Prop where
  /-- The contract was an active one of the client, and the prices are those of its price list. -/
  terms : OnTerms s o c
  /-- The order holds quota. -/
  reserved : o.quantitiesReserved = true
  /-- Each counter was raised by the quantity of the line. -/
  counted : ∀ i ∈ o.items, ∃ p, s.priceItems.find? (c, i.productId) = some p ∧
    s'.priceItems.find? (c, i.productId) = some { p with quantityUsed := p.quantityUsed + i.quantity }

/-- Orders that were made between two states have contracts only if they were placed on their terms. -/
def NewOnTerms (s s' : Db) : Prop :=
  ∀ id o c, s.orders.find? id = none → s'.orders.find? id = some o → o.contractId = some c →
    PlacedOnTerms s s' o c

/-- Orders that were made between two states have no contract. -/
def NewWithout (s s' : Db) : Prop :=
  ∀ id o, s.orders.find? id = none → s'.orders.find? id = some o → o.contractId = none

theorem NewWithout.newOnTerms {s s' : Db} (h : NewWithout s s') : NewOnTerms s s' := by
  intro id o c hold hnew hc
  rw [h id o hold hnew] at hc
  cases hc

theorem newWithout_of_orders_eq {s s' : Db} (h : s'.orders = s.orders) : NewWithout s s' := by
  intro id o hold hnew
  rw [h, hold] at hnew
  cases hnew

section Changes

variable {R : Regime schema} {r : Request} {s s' : Db}

/-- The quantity of a line is what its order holds of the product. -/
theorem held_line {o : Order} {c : Uuid} (hreserved : o.quantitiesReserved = true)
    (hc : o.contract? = some c) (hnodup : (o.items.map OrderItem.productId).Nodup) {i : OrderItem}
    (hi : i ∈ o.items) : held o (c, i.productId) = i.quantity := by
  have hkeys : ((o.items.map OrderItem.pair).map Prod.fst).Nodup := by
    rw [List.map_map]
    exact hnodup
  rw [held_of_reserved hreserved hc, demand, if_pos rfl]
  exact Bag.amount_of_mem hkeys (List.mem_map.mpr ⟨i, hi, rfl⟩)

/-- One change places an order by contract on the terms of the contract. -/
theorem newOnTerms_of_change (h : Change R r s s') : NewOnTerms s s' := by
  intro id o c hold hnew hc
  cases h.kind with
  | order id' new rows hstep horders hquota =>
    by_cases hid : id = id'
    · subst hid
      rw [hold] at hstep hquota
      cases horders.find?_self.symm.trans hnew
      cases hstep with
      | placed hstatus hsale hitems hnodup htotal hreserved hcreated hlogs hop hmethod hterms =>
        have hcontract : o.contract? = some c := by
          rw [Order.contract?, if_pos (hmethod.mpr (by rw [hc]; rfl)), hc]
        have hflag : o.quantitiesReserved = true := by
          rw [hreserved, hcontract]
          rfl
        have hterms := hterms c hc
        refine ⟨hterms, hflag, fun i hi => ?_⟩
        obtain ⟨p, hp, -, -⟩ := hterms.prices i hi
        refine ⟨p, hp, ?_⟩
        have hpos := (hitems i hi).quantity_pos
        have hheld := held_line hflag hcontract hnodup hi
        rw [hquota.find_eq, hp, Option.map_some, Option.elim_none, sub_zero, hheld, shifted,
          if_neg (by omega)]
      | sold hstatus hsale hitems htotal hcontract =>
        rw [hcontract] at hc
        cases hc
    · rw [horders.find?_ne hid, hold] at hnew
      cases hnew
  | cancelled xs hnodup hstep horders =>
    rw [horders id, hold, Option.or_none] at hnew
    obtain ⟨l₁, l₂, hsplit, -⟩ := List.lookup_eq_some_iff.mp hnew
    have hmem : (id, o) ∈ xs.map fun x => (x.1, x.2.2) :=
      hsplit ▸ List.mem_append_right _ List.mem_cons_self
    obtain ⟨x, hx, heq⟩ := List.mem_map.mp hmem
    cases heq
    cases (hstep x hx).1.symm.trans hold
  | priceSet _ _ _ _ _ _ horders =>
    exact (newWithout_of_orders_eq horders).newOnTerms id o c hold hnew hc
  | priceRemoved _ _ _ _ _ _ _ horders =>
    exact (newWithout_of_orders_eq horders).newOnTerms id o c hold hnew hc
  | billed _ _ _ _ _ _ _ _ _ _ _ _ horders =>
    exact (newWithout_of_orders_eq horders).newOnTerms id o c hold hnew hc
  | invoiceSet _ _ _ _ _ _ horders =>
    exact (newWithout_of_orders_eq horders).newOnTerms id o c hold hnew hc
  | other horders => exact (newWithout_of_orders_eq horders).newOnTerms id o c hold hnew hc

/-- Whatever is asked for but an order of a client, new orders have no contract. -/
theorem newWithout_of_changes (h : Changes R r s s')
    (hop : ∀ clientId dto, r.op ≠ .createOrder clientId dto) : NewWithout s s' := by
  refine h.induction (newWithout_of_orders_eq rfl) fun s₁ s₂ hs₁ hchange id o hold hnew => ?_
  rcases hchange.order_cases id with hsame | ⟨new, hfind, hstep⟩
  · exact hs₁ id o hold (hsame ▸ hnew)
  · cases hfind.symm.trans hnew
    cases hmid : s₁.orders.find? id with
    | some o₁ =>
      rw [hmid] at hstep
      rw [hstep.sameHeader.contractId_eq]
      exact hs₁ id o₁ hold hmid
    | none =>
      rw [hmid] at hstep
      cases hstep with
      | placed _ _ _ _ _ _ _ _ hcreate =>
        obtain ⟨dto, hcreate, -⟩ := hcreate
        exact absurd hcreate (hop _ dto)
      | sold hstatus hsale hitems htotal hcontract => exact hcontract

/-- The way of payment and the contract agree after every step. -/
theorem step_method {id : Uuid} {old : Option Order} {new : Order} (h : OrderStep R r s id old new)
    (hold : ∀ o, old = some o → (o.paymentMethod = .contract ↔ o.contractId.isSome = true)) :
    new.paymentMethod = .contract ↔ new.contractId.isSome = true := by
  cases hcase : old with
  | some o =>
    rw [hcase] at h
    rw [h.sameHeader.paymentMethod_eq, h.sameHeader.contractId_eq]
    exact hold o hcase
  | none =>
    rw [hcase] at h
    cases h with
    | placed _ _ _ _ _ _ _ _ _ hmethod => exact hmethod
    | sold _ _ _ _ hcontract _ _ _ _ hmethod =>
      rw [hmethod, hcontract]
      simp

end Changes

/-! ## Runs -/

/-- Orders are in order, and those with a contract are the ones that are paid by contract. -/
structure MethodsKept (s : Db) : Prop where
  /-- The orders are in order. -/
  ordersOk : OrdersOk s
  /-- The way of payment and the contract agree. -/
  method_iff : ∀ id o, s.orders.find? id = some o →
    (o.paymentMethod = .contract ↔ o.contractId.isSome = true)

theorem MethodsKept.change {R : Regime schema} {r : Request} {s s' : Db} (h : MethodsKept s)
    (hchange : Change R r s s') : MethodsKept s' := by
  constructor
  · exact hchange.ordersOk h.ordersOk
  · intro id o ho
    rcases hchange.order_cases id with hsame | ⟨new, hnew, hstep⟩
    · exact h.method_iff id o (hsame ▸ ho)
    · cases hnew.symm.trans ho
      exact step_method hstep fun o ho => h.method_iff id o ho

/-- What an operation does is a sequence of changes that places on terms. -/
theorem program_newOnTerms {s : Db} (hs : OrdersOk s) (r : Request) :
    wp Regime.concurrent (Operations.program r)
      (fun _ s' => Changes Regime.concurrent r s s' ∧ NewOnTerms s s') (fun _ => True) s := by
  have ht : Tame Regime.concurrent fun _ => True := Tame.concurrentAssuming _
  have hlax : Regime.Lax (S := schema) Regime.concurrent := Regime.concurrentAssuming_lax _
  by_cases hop : ∃ clientId dto, r.op = .createOrder clientId dto
  · obtain ⟨clientId, dto, hop⟩ := hop
    have hprogram : Operations.program r = createOrder r.env clientId dto := by
      rw [Operations.program, hop]
    rw [hprogram]
    refine wp_mono _ (createOrder_change ht hop) (fun _ _ hchange => ?_) fun _ he => he
    exact ⟨hchange.single, newOnTerms_of_change hchange⟩
  · have hop : ∀ clientId dto, r.op ≠ .createOrder clientId dto :=
      fun clientId dto heq => hop ⟨clientId, dto, heq⟩
    have hchanges := program_changes (r := r) ht hs fun s₁ _ => releasable_of_lax hlax s₁
    refine wp_mono _ hchanges (fun _ _ hchanges => ?_) fun _ he => he
    exact ⟨hchanges, (newWithout_of_changes hchanges hop).newOnTerms⟩

/-- Every transaction of the services keeps the agreement and places on terms. -/
theorem program_methodsKept {s : Db} (h : MethodsKept s) (r : ServiceRequest) :
    wp Regime.concurrent (program r) (fun _ s' => MethodsKept s' ∧ NewOnTerms s s')
      (fun _ => True) s := by
  cases r with
  | operation r =>
    refine wp_mono _ (program_newOnTerms h.ordersOk r) (fun _ _ hs' => ?_) fun _ he => he
    obtain ⟨hchanges, hterms⟩ := hs'
    exact ⟨hchanges.induction h fun _ _ h₁ hchange => h₁.change hchange, hterms⟩
  | stock env op =>
    have ht : Tame Regime.concurrent fun _ => True := Tame.concurrentAssuming _
    refine wp_stock ht (stockProgram_quiet env op) fun _ b st sx => ?_
    refine ⟨⟨h.ordersOk, h.method_iff⟩, NewWithout.newOnTerms ?_⟩
    exact newWithout_of_orders_eq rfl

/-- A command that does not onboard a client with a first order by contract. -/
def noContractOrder : ClientOperation → Bool
  | .onboardClientWithBalance data _ => data.order.all fun order => order.paymentMethod ≠ .contract
  | _ => true

/-- A command without a first order by contract keeps the agreement. -/
theorem client_methodsKept {env : Env} {op : ClientOperation} {r r' : Registry}
    (hr : MethodsKept r.db) (hop : noContractOrder op = true) (h : op.run env r = .ok r') :
    MethodsKept r'.db ∧ NewOnTerms r.db r'.db := by
  refine run_wp (Q := fun s => MethodsKept s ∧ NewOnTerms r.db s) h fun s new henrolled _ => ?_
  obtain ⟨users, balances, directory, rfl⟩ := henrolled.same
  refine wp_followUp Tame.serial env op fun b st sx orders horders => ?_
  have hkept : orders = r.db.orders → MethodsKept { r.db with
      users := users, accountBalances := balances, directory := directory, balances := b,
      stockTransfers := st, stockTransactions := sx, orders := orders } ∧
      NewOnTerms r.db { r.db with
        users := users, accountBalances := balances, directory := directory, balances := b,
        stockTransfers := st, stockTransactions := sx, orders := orders } := by
    rintro rfl
    refine ⟨⟨hr.ordersOk, hr.method_iff⟩, NewWithout.newOnTerms ?_⟩
    exact newWithout_of_orders_eq rfl
  cases op with
  | onboardClientWithBalance data creatorId =>
    cases horders with
    | none _ horders => exact hkept horders
    | some order o horder hfresh ho hwritten =>
      have hmethod : o.paymentMethod ≠ .contract := by
        rw [ho.paymentMethod_eq]
        simpa [noContractOrder, horder] using hop
      have hcases : ∀ id x, orders.find? id = some x →
          x = o ∨ r.db.orders.find? id = some x := by
        intro id x hx
        by_cases hid : id = env.uuid 2 0
        · rw [hid, hwritten.find?_self] at hx
          exact .inl (Option.some.inj hx).symm
        · rw [hwritten.find?_ne hid] at hx
          exact .inr hx
      refine ⟨⟨fun id x hx => ?_, fun id x hx => ?_⟩, ?_⟩
      · rcases hcases id x hx with rfl | hx
        · exact ho.orderOk
        · exact hr.ordersOk id x hx
      · rcases hcases id x hx with rfl | hx
        · simp [hmethod, ho.contractId_eq]
        · exact hr.method_iff id x hx
      · refine NewWithout.newOnTerms fun id x hold hx => ?_
        rcases hcases id x hx with rfl | hx
        · exact ho.contractId_eq
        · cases hold.symm.trans hx
  | _ => exact hkept horders

theorem noOrders_methodsKept (r : Registry) : MethodsKept (noOrders r).db where
  ordersOk id o ho := absurd ho (by simp [noOrders])
  method_iff id o ho := absurd ho (by simp [noOrders])

/-- Payment by contract means a contract: in every committed state, and for
every order that an event makes. -/
def ContractMeant (ok : ServiceRequest → Directory → Bool) (okClient : ClientOperation → Bool)
    (w : World) : Prop :=
  (∀ id o, w.sys.db.orders.find? id = some o →
    (o.paymentMethod = .contract ↔ o.contractId.isSome = true)) ∧
  ∀ e w', e.meets ok okClient w = true → w.exec e = some w' → NewOnTerms w.sys.db w'.sys.db

/-- In every run in which no client is onboarded with a first order by contract,
payment by contract means a contract. -/
theorem contract_payment_means_contract (r : Registry) {w : World}
    (h : Reachable (fun _ _ => true) noContractOrder (World.init (noOrders r)) w) :
    ContractMeant (fun _ _ => true) noContractOrder w := by
  have hkept := h.kept (I := MethodsKept) (T := NewOnTerms)
    (fun s => (newWithout_of_orders_eq rfl).newOnTerms)
    (fun r s hs _ => program_methodsKept hs r)
    (fun env op r r' hr hop hrun => client_methodsKept hr hop hrun) (noOrders_methodsKept r)
  exact ⟨hkept.1.method_iff, hkept.2⟩

/-! ## Two runs -/

/-- A price is agreed, and coffee is ordered by contract; the order is not yet committed. -/
def contractOrderEvents : List Event :=
  served 0 (.operation (sampleRequest 0 0 (.setPriceItem 31 23 60 10))) 4 ++
    .schedule (.start 1 (.operation
      (sampleRequest 1 1 (.createOrder 7 ⟨[⟨23, 2, Operations.two_pieces⟩], .contract, 5, false, none⟩)))) ::
    List.replicate 12 (.schedule (.step 1))

/-- The way of payment and the contract of an order. -/
def paidBy (id : Uuid) (w : World) : Option (PaymentMethod × Option Uuid) :=
  (w.sys.db.orders.find? id).map fun o => (o.paymentMethod, o.contractId)

theorem contract_payment_means_contract_sample :
    ∃ w w', contractOrderEvents.foldlM (World.execIf (fun _ _ => true) noContractOrder)
        (World.init (noOrders ⟨sampleDb, []⟩)) = some w ∧
      w.exec (.schedule (.commit 1)) = some w' ∧
      paidBy 20000 w' = some (.contract, some 31) ∧
      ContractMeant (fun _ _ => true) noContractOrder w := by
  have heval : ((contractOrderEvents.foldlM (World.execIf (fun _ _ => true) noContractOrder)
      (World.init (noOrders ⟨sampleDb, []⟩))).bind fun w =>
        w.exec (.schedule (.commit 1))).map (paidBy 20000) =
          some (some (.contract, some 31)) := by decide +kernel
  obtain ⟨w', hw', hpaid⟩ := Option.map_eq_some_iff.mp heval
  obtain ⟨w, hrun, hexec⟩ := Option.bind_eq_some_iff.mp hw'
  have hreach := Reachable.of_events _ hrun
  exact ⟨w, w', hrun, hexec, hpaid, contract_payment_means_contract ⟨sampleDb, []⟩ hreach⟩

/-- A client is onboarded with a first order of coffee that is paid by contract. -/
def firstContractOrderEvents : List Event :=
  [.client ⟨0, fun i j => 500 + 10 * i + j⟩
    (.onboardClientWithBalance (newcomer (some ⟨[(23, 1)], .contract⟩)) 9)]

theorem contract_payment_without_contract :
    ¬ ∀ (r : Registry) (w : World),
      Reachable (fun _ _ => true) (fun _ => true) (World.init (noOrders r)) w →
      ContractMeant (fun _ _ => true) (fun _ => true) w := by
  intro hclaim
  have heval : (firstContractOrderEvents.foldlM (World.execIf (fun _ _ => true) fun _ => true)
      (World.init (noOrders ⟨sampleDb, []⟩))).map (paidBy 520) =
        some (some (.contract, none)) := by decide +kernel
  obtain ⟨w, hrun, hpaid⟩ := Option.map_eq_some_iff.mp heval
  obtain ⟨o, ho, hpair⟩ := Option.map_eq_some_iff.mp hpaid
  obtain ⟨hmethod, hcontract⟩ := Prod.mk.inj hpair
  have hmeant := (hclaim _ w (Reachable.of_events _ hrun)).1 520 o ho
  have hsome := hmeant.mp hmethod
  rw [hcontract] at hsome
  cases hsome

end Munavvar.ContractPayment
