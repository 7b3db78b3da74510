import Munavvar.ContractEffects
import Munavvar.QuotaLimit

/-!
# Reservations on expired contracts

A contract that has ended is still active by its status until the job has run.
A new order looks at the end date of its contract as well; an order that a
product is added to looks at the status alone.
-/

namespace Munavvar.ExpiredContracts

open Munavvar.KeyedTable
open Munavvar.Transaction
open Munavvar.Transaction.Prog
open Munavvar.ReadCommitted
open Munavvar.Database
open Munavvar.Statements
open Munavvar.StockLedger
open Munavvar.OrderQueries
open Munavvar.Quota
open Munavvar.OrderService
open Munavvar.Operations
open Munavvar.OrderChanges
open Munavvar.OrderEffects
open Munavvar.ContractEffects
open Munavvar.QuotaLimit (alone coffee shifted_bounds)

/-! ## Counters -/

/-- `quantity_used` of a price item; zero if there is none. -/
def counter (s : Db) (k : Uuid × Uuid) : ℤ := (s.priceItems.find? k).elim 0 PriceItem.quantityUsed

/-- A contract is active and has not ended. -/
def InForce (s : Db) (now : ℤ) (c : Uuid) : Prop :=
  ∃ k, s.contracts.find? c = some k ∧ k.status = .active ∧ k.isActive = true ∧
    (k.endDate.all fun endDate => dateOf now ≤ endDate) = true

/-- A request raises counters of contracts in force only. -/
def ReservesInForce (r : Request) (s : Db) : Prop :=
  ∀ s', (program r).run s = .ok ((), s') →
    ∀ c p, counter s (c, p) < counter s' (c, p) → InForce s r.env.now c

/-- Orders are in order and no counter is negative. -/
structure Counted (s : Db) : Prop where
  /-- The orders are in order. -/
  ordersOk : OrdersOk s
  /-- `ck_contract_price_item_quantity_used_non_neg`. -/
  nonneg : ∀ k p, s.priceItems.find? k = some p → 0 ≤ p.quantityUsed

section Steps

variable {R : Regime schema} {r : Request} {s s' : Db}

theorem shifted_nonneg {used change : ℤ} (h : 0 ≤ used) : 0 ≤ shifted used change := by
  unfold shifted released
  split_ifs <;> omega

theorem Counted.change (h : Counted s) (hchange : Change R r s s') : Counted s' := by
  refine ⟨hchange.ordersOk h.ordersOk, fun k p' hp' => ?_⟩
  cases hchange.quotaStep with
  | moved change hquota htotal =>
    rw [hquota.find_eq k] at hp'
    obtain ⟨p, hp, rfl⟩ := Option.map_eq_some_iff.mp hp'
    exact shifted_nonneg (h.nonneg k p hp)
  | set c p row hwritten hrow hquantity horders =>
    rw [hwritten k] at hp'
    split at hp'
    · cases hp'
      cases hfind : s.priceItems.find? (c, p) with
      | none =>
        rw [hfind] at hrow
        exact hrow.1.ge
      | some old =>
        rw [hfind] at hrow
        have hold := h.nonneg _ old hfind
        have hused : p'.quantityUsed = old.quantityUsed := by rw [hrow.1]
        omega
    · exact h.nonneg k p' hp'
  | removed c p row hrow hwritten hused hassumed horders =>
    rw [hwritten k] at hp'
    split at hp'
    · cases hp'
    · exact h.nonneg k p' hp'

theorem Counted.counter_nonneg (h : Counted s) (k : Uuid × Uuid) : 0 ≤ counter s k := by
  unfold counter
  cases hfind : s.priceItems.find? k with
  | none => exact le_refl 0
  | some p => exact h.nonneg k p hfind

/-- Lines with fewer pieces of the same products ask for less. -/
theorem demand_map_le {c : Uuid} {items : List OrderItem} {f : OrderItem → OrderItem}
    (hproduct : ∀ i ∈ items, (f i).productId = i.productId)
    (hle : ∀ i ∈ items, (f i).quantity ≤ i.quantity) (k : Uuid × Uuid) :
    demand c ((items.map f).map OrderItem.pair) k ≤ demand c (items.map OrderItem.pair) k := by
  unfold demand
  split
  · induction items with
    | nil => exact le_refl 0
    | cons i items ih =>
      have hrest := ih (fun j hj => hproduct j (List.mem_cons_of_mem i hj))
        fun j hj => hle j (List.mem_cons_of_mem i hj)
      have hi := hproduct i List.mem_cons_self
      have hq := hle i List.mem_cons_self
      simp only [List.map_cons, Bag.amount_cons, OrderItem.pair, hi]
      split <;> omega
  · exact le_refl 0

/-- Only a new order and one of a contract that a product is added to hold more
of a quota than before. -/
theorem held_le_of_step {id : Uuid} {old : Option Order} {new : Order}
    (hold : ∀ o, old = some o → OrderOk o) (h : OrderStep R r s id old new)
    (hcreate : ∀ clientId dto, r.op ≠ .createOrder clientId dto)
    (hadd : ∀ p q u o, r.op = .addProductToOrder id p q u → old = some o → o.contract? = none)
    (k : Uuid × Uuid) : held new k ≤ old.elim 0 fun o => held o k := by
  cases h with
  | placed _ _ _ _ _ _ _ _ hop =>
    obtain ⟨dto, hop, -⟩ := hop
    exact absurd hop (hcreate _ dto)
  | sold _ _ _ _ hcontract hreserved => exact (held_of_not_reserved hreserved k).le
  | @lineAdded o p q price items hop =>
    obtain ⟨u, hop⟩ := hop
    have hnone := hadd p q u o hop rfl
    rw [held_of_no_contract (by exact hnone), Option.elim_some, held_of_no_contract hnone]
  | @lineRemoved o p i hstatus hline hlength =>
    have hpos := (hold o rfl).quantity_pos
    have hmem : i ∈ o.items := by
      have hi : i ∈ o.items.filter fun i => i.productId = p := hline ▸ List.mem_cons_self
      exact (List.mem_filter.mp hi).1
    change _ ≤ held o k
    unfold held
    dsimp only
    split
    · change (o.contract?.elim 0 _) ≤ _
      cases o.contract? with
      | none => exact le_refl 0
      | some c =>
        have hsplit := demand_lineRemoved (c := c) hline k
        have hnonneg : 0 ≤ demand c [(p, i.quantity)] k :=
          demand_nonneg (by simpa using hpos i hmem) k
        dsimp only [Option.elim_some]
        omega
    · exact le_refl 0
  | assigned => exact le_refl (held _ k)
  | moved => exact le_refl (held _ k)
  | @cancelled o by_ kept logged hstatus =>
    exact (held_of_not_reserved rfl k).le.trans (held_nonneg (hold o rfl) k)
  | @delivered o items total by_ logged hstatus hsale hcourier hitems =>
    change _ ≤ held o k
    cases hitems with
    | whole => exact le_refl (held o k)
    | partly actual hactual =>
      unfold held
      dsimp only
      split
      · change (o.contract?.elim 0 _) ≤ _
        cases o.contract? with
        | none => exact le_refl 0
        | some c =>
          exact demand_map_le (f := Fulfillment.adjustItem actual) (fun i _ => rfl)
            (fun i hi => (hactual i hi).2) k
      · exact le_refl 0
  | pickedUp => exact le_refl (held _ k)

/-- A request that neither places an order nor adds to one of a contract raises no counter. -/
theorem counter_le_of_change (h : Counted s) (hchange : Change R r s s')
    (hcreate : ∀ clientId dto, r.op ≠ .createOrder clientId dto)
    (hadd : ∀ id p q u o, r.op = .addProductToOrder id p q u → s.orders.find? id = some o →
      o.contract? = none) (k : Uuid × Uuid) : counter s' k ≤ counter s k := by
  have hmoved : ∀ change : Uuid × Uuid → ℤ, QuotaMoved s.priceItems s'.priceItems change →
      change k ≤ 0 → counter s' k ≤ counter s k := by
    intro change hquota hle
    unfold counter
    rw [hquota.find_eq k]
    cases hfind : s.priceItems.find? k with
    | none => exact le_refl 0
    | some p => exact (shifted_bounds (h.nonneg k p hfind) hle).2
  have hsame : s'.priceItems = s.priceItems → counter s' k ≤ counter s k := by
    intro heq
    unfold counter
    rw [heq]
  cases hchange.kind with
  | order id new rows hstep horders hquota =>
    apply hmoved _ hquota
    have hheld := held_le_of_step (fun o ho => h.ordersOk id o ho) hstep hcreate
      (fun p q u o hop => hadd id p q u o hop) k
    omega
  | cancelled xs hnodup hstep horders hquota =>
    apply hmoved _ hquota
    have hsum := List.sum_le_card_nsmul (xs.map fun x => -held x.2.1 k) 0 fun n hn => by
      obtain ⟨x, hx, rfl⟩ := List.mem_map.mp hn
      have hheld := held_nonneg (h.ordersOk x.1 x.2.1 (hstep x hx).1) k
      omega
    rw [nsmul_zero] at hsum
    exact hsum
  | priceSet c p row hwritten hrow =>
    unfold counter
    rw [hwritten k]
    split
    · next heq =>
      subst heq
      cases hfind : s.priceItems.find? (c, p) with
      | none =>
        rw [hfind] at hrow
        exact hrow.1.le
      | some old =>
        rw [hfind] at hrow
        exact (congrArg PriceItem.quantityUsed hrow.1).le
    · exact le_refl _
  | priceRemoved c p row hrow hwritten =>
    have hnonneg := h.counter_nonneg k
    unfold counter at hnonneg ⊢
    rw [hwritten k]
    split
    · exact hnonneg
    · exact le_refl _
  | billed _ _ _ _ _ _ _ _ _ _ _ _ _ hprices => exact hsame hprices
  | invoiceSet _ _ _ _ _ _ _ hprices => exact hsame hprices
  | other _ hprices => exact hsame hprices

theorem counter_le_of_changes (h : Counted s) (hchanges : Changes R r s s')
    (hcreate : ∀ clientId dto, r.op ≠ .createOrder clientId dto)
    (hadd : ∀ id p q u, r.op ≠ .addProductToOrder id p q u) (k : Uuid × Uuid) :
    counter s' k ≤ counter s k := by
  have hboth := hchanges.induction (I := fun s₁ => Counted s₁ ∧ counter s₁ k ≤ counter s k)
    ⟨h, le_refl _⟩ fun s₁ s₂ h₁ hchange =>
      ⟨h₁.1.change hchange, (counter_le_of_change h₁.1 hchange hcreate
        (fun id p q u _ hop => absurd hop (hadd id p q u)) k).trans h₁.2⟩
  exact hboth.2

end Steps

/-- Counters stay in order in every interleaving. -/
theorem counted_of_reach (s : Db) {σ : Sys schema Request}
    (h : Reach program (fun _ _ _ => True) (Sys.init (fresh s)) σ) : Counted σ.db := by
  refine h.invariant (I := Counted) (fun r s₁ hs₁ => ?_) ⟨?_, ?_⟩
  · have hlax : Regime.Lax (S := schema) (Regime.concurrentAssuming fun _ _ _ => True) :=
      Regime.concurrentAssuming_lax _
    have hchanges := program_changes (r := r) (Tame.concurrentAssuming fun _ _ _ => True)
      hs₁.ordersOk fun s₂ _ => releasable_of_lax hlax s₂
    refine wp_mono _ hchanges (fun _ s₂ h₂ => ?_) fun _ he => he
    exact h₂.induction hs₁ fun s₃ s₄ h₃ hchange => h₃.change hchange
  · intro id o ho
    exact absurd ho (by simp [fresh])
  · intro k p hp
    exact absurd hp (by simp [fresh])

/-! ## New orders -/

/-- Statements on tables other than that of the price items. -/
def NotPriceItem : (k : Key) → Stmt k → Prop
  | .priceItem _ _, _ => False
  | _, _ => True

section NewOrders

variable {R : Regime schema} {E : Err → Prop} {s : Db}

/-- A part that writes other tables keeps the counters. -/
theorem wp_notPriceItem (ht : Tame R E) {α : Type} {p : Uow α} (hp : Quiet NotPriceItem p)
    {Q : α → Db → Prop} (hQ : ∀ a s', s'.priceItems = s.priceItems → Q a s') : wp R p Q E s := by
  apply wp_within ht hp
  · intro k st hst
    cases k <;> first | exact hst.elim | exact not_false
  · intro a s' hframe
    apply hQ
    refine hframe.proj_eq Db.priceItems fun s₁ k st r hst => ?_
    cases k <;> first | exact hst.elim | rfl

/-- What follows the reservation of a new order. -/
theorem placement_quiet (env : Env) (inventoryId orderId clientId : Uuid) (items : List Item)
    (exchange : List ExchangeItem) (capitalize : Bool) (order : Bool → Order)
    (lines : List OrderItem) :
    Quiet NotPriceItem (do
      let capitalized ← exchangeTara env inventoryId items exchange capitalize clientId
      insertOrder orderId (order capitalized) lines
      issue (.order orderId) (.logTransition ⟨none, .new, some clientId, none⟩)) := by
  have htara : Quiet NotPriceItem (exchangeTara env inventoryId items exchange capitalize clientId) := by
    apply (exchangeTara_quiet env inventoryId items exchange capitalize clientId).mono
    · intro k st hst
      cases k <;> first | exact hst.elim | exact trivial
    · exact fun e he => he
  refine within_bind htara fun capitalized => within_bind ?_ fun _ =>
    (within_execute _ _).mpr trivial
  refine within_bind ((within_execute _ _).mpr trivial) fun _ => within_bind (within_ask _) fun d => ?_
  exact within_bind ((within_raiseIf _ _).mpr fun _ => rfl) fun _ => (within_execute _ _).mpr trivial

/-- `create_order` raises counters of a contract in force only. -/
theorem createOrder_inForce (ht : Tame R E) {env : Env} {clientId : Uuid} {dto : OrderCreate} :
    wp R (createOrder env clientId dto) (fun _ s' =>
      ∀ c p, counter s (c, p) < counter s' (c, p) → InForce s env.now c) E s := by
  rw [createOrder, wp_bind]
  refine wp_check ht rfl fun hcart => ?_
  rw [wp_bind]
  refine wp_check ht rfl fun hnodup => ?_
  rw [wp_bind]
  refine wp_reads ht (availableProducts_quiet _) fun products => ?_
  rw [wp_bind]
  refine wp_reads ht (getClient_quiet _) fun client => ?_
  rw [wp_bind]
  refine wp_termsInForce ht _ _ _ _ _ (fun hmethod => ?_)
    fun c k items hmethod hcontract hended hitems hall => ?_
  · rw [wp_bind, wp_whenSome]
    refine ⟨fun _ h => absurd h (by simp), fun _ => ?_⟩
    apply wp_notPriceItem ht (placement_quiet _ _ _ _ _ _ _ _ _)
    intro _ s' hsame c p hraised
    unfold counter at hraised
    rw [hsame] at hraised
    omega
  · rw [wp_bind, wp_whenSome]
    refine ⟨?_, fun h => absurd h (by simp)⟩
    rintro _ ⟨rfl⟩
    refine wp_checkAndReserveQuantities ht c hitems (fun x hx => ?_) fun t hwithin hreserved => ?_
    · obtain ⟨i, hi, rfl⟩ := List.mem_map.mp hx
      exact hall _ (List.mem_map.mpr ⟨i, hi, rfl⟩)
    · apply wp_notPriceItem ht (placement_quiet _ _ _ _ _ _ _ _ _)
      intro _ s' hsame c' p hraised
      have hsame : s'.priceItems = t := hsame
      by_cases hc : c' = c
      · subst hc
        obtain ⟨hfind, -, hstatus, hactive⟩ := hcontract
        refine ⟨k, hfind, hstatus, hactive, ?_⟩
        cases hend : k.endDate with
        | none => rfl
        | some endDate =>
          rw [hend] at hended
          simpa using hended
      · -- the counters of other contracts stay
        have hdemand : demand c (dto.items.map Item.pair) (c', p) = 0 := if_neg hc
        unfold counter at hraised
        rw [hsame, hreserved.find_eq, hdemand] at hraised
        cases hfind : s.priceItems.find? (c', p) with
        | none => simp [hfind] at hraised
        | some row => simp [hfind] at hraised

end NewOrders

/-! ## Added products -/

/-- The line that an added product leaves: a new one, or the only one of the product. -/
def resultingLine (o : Order) (productId : Uuid) (quantity price : ℤ) : Option OrderItem :=
  match o.items.filter fun i => i.productId = productId with
  | [] => some ⟨productId, quantity, price⟩
  | [i] => some { i with quantity := i.quantity + quantity }
  | _ => none

/-- The line that is written for the line that was found. -/
def writtenLine (productId : Uuid) (quantity price : ℤ) : Option (OrderItem × ℕ) → OrderItem
  | none => ⟨productId, quantity, price⟩
  | some (i, _) => { i with quantity := i.quantity + quantity }

/-- The price item after a reservation. -/
def reservedItem (p : PriceItem) (quantity : ℤ) : PriceItem :=
  { p with quantityUsed := p.quantityUsed + quantity }

/-- A row satisfies its constraints. -/
def Passes (cs : List (Bool × Err)) : Prop := ∀ x ∈ cs, x.1 = true

/-- An order of a contract that is active by its status admits some pieces of a product. -/
structure Admits (orderId productId : Uuid) (quantity : ℤ) (requestingUserId : Option Uuid) (s : Db)
    (o : Order) (c : Uuid) (k : Contract) (p : PriceItem) : Prop where
  /-- Something is added. -/
  quantity_pos : 0 < quantity
  /-- The product is on sale. -/
  onSale : (s.products.find? productId).any Product.isActive = true
  /-- The order. -/
  order : s.orders.find? orderId = some o
  /-- It is the caller's. -/
  allowed : ¬ (requestingUserId.any fun u => o.clientId ≠ u) = true
  /-- It is new. -/
  status_eq : o.status = .new
  /-- It is paid by contract. -/
  ofContract : o.contract? = some c
  /-- The contract. -/
  contract : s.contracts.find? c = some k
  /-- It is not archived. -/
  contract_active : k.isActive = true
  /-- It is active by its status. -/
  contract_status : k.status = .active
  /-- The price item. -/
  item : s.priceItems.find? (c, productId) = some p
  /-- It is not archived. -/
  item_active : p.isActive = true
  /-- The quota has room. -/
  quota : ¬ (p.quantity ≠ 0 ∧ p.quantity - p.quantityUsed < quantity)
  /-- The counter fits its column. -/
  counter_fits : Passes (reservedItem p quantity).constraints
  /-- So does the line. -/
  line : ∃ i, resultingLine o productId quantity p.price = some i ∧ Passes i.constraints
  /-- And the total. -/
  total : int64 (o.totalAmount + p.price * quantity) = true

section Additions

variable {R : Regime schema} {E : Err → Prop} {s : Db} {c productId : Uuid} {quantity : ℤ}

/-- The locking read of one price item. -/
theorem wp_getForProduct (hexact : R.Exact) {Q : List (Uuid × PriceItem) → Db → Prop}
    (hQ : Q (((s.priceItems.find? (c, productId)).filter PriceItem.isActive).toList.map
      (Prod.mk productId)) s) :
    wp R (getForProductsLocked c [productId]) Q E s := by
  rw [getForProductsLocked, wp_bind]
  refine wp_ask_exact hexact ?_
  rw [wp_bind]
  let read (x : Uuid × Uuid) : Uuid × Option PriceItem :=
    (x.1, (s.priceItems.find? (c, x.1)).filter fun p => p.id = x.2 && p.isActive)
  refine wp_collect_reads (R := R) read ?_ ?_
  · exact fun x _ Q hQ => hQ
  rw [wp_ret]
  have hids : [productId].dedup.insertionSort (· ≤ ·) = [productId] := by
    rw [(List.nodup_singleton productId).dedup]
    rfl
  rw [hids]
  revert hQ
  cases hrow : (s.priceItems.find? (c, productId)).filter PriceItem.isActive with
  | none =>
    intro hQ
    simpa [hrow] using hQ
  | some p =>
    obtain ⟨hfind, hactive⟩ := Option.filter_eq_some_iff.mp hrow
    intro hQ
    simpa [read, hrow, hfind, hactive] using hQ

/-- One counter is raised if its row passes its constraints. -/
theorem wp_increment (hlax : R.Lax) {p : PriceItem} (hp : s.priceItems.find? (c, productId) = some p)
    (hquantity : 0 < quantity) (hsure : Sure E (Passes (reservedItem p quantity).constraints))
    {Q : Unit → Db → Prop} (hQ : Passes (reservedItem p quantity).constraints →
      Q () (s.put (.priceItem c productId) (some (reservedItem p quantity)))) :
    wp R (incrementQuantitiesUsed c [(productId, p.id, quantity)]) Q E s := by
  have hexec : exec (.priceItem c productId) (.increment p.id quantity)
      (s.get (.priceItem c productId)) =
      checked (reservedItem p quantity) (reservedItem p quantity).constraints := by
    change (PriceItemStmt.increment p.id quantity).exec (s.priceItems.find? (c, productId)) = _
    rw [hp, PriceItemStmt.exec, if_pos rfl]
    rfl
  have hfound : schema.get s (.priceItem c productId) = some p := hp
  rw [incrementQuantitiesUsed, forEach, wp_bind']
  dsimp only
  rw [wp_bind, wp_raiseIf]
  refine ⟨fun h => absurd hquantity (not_lt.mpr h), fun _ => ?_⟩
  rw [wp_bind, wp_locked, wp_bind]
  apply wp_checked hlax hexec hsure
  intro hpasses
  rw [wp_raiseIf, hfound]
  refine ⟨fun hmissing => absurd hmissing (by simp), fun _ => ?_⟩
  exact hQ hpasses

/-- The reservation of one line succeeds exactly if the contract is active by
its status and the quota and the column have room. -/
theorem wp_reserveLine (hexact : R.Exact) (hlax : R.Lax) {o : Order} (hquantity : 0 < quantity)
    (hsure : Sure E (∃ k p, s.contracts.find? c = some k ∧ k.isActive = true ∧ k.status = .active ∧
      s.priceItems.find? (c, productId) = some p ∧ p.isActive = true ∧
      ¬ (p.quantity ≠ 0 ∧ p.quantity - p.quantityUsed < quantity) ∧
      Passes (reservedItem p quantity).constraints))
    {Q : ℤ → Db → Prop}
    (hQ : ∀ k p, s.contracts.find? c = some k → k.isActive = true → k.status = .active →
      s.priceItems.find? (c, productId) = some p → p.isActive = true →
      ¬ (p.quantity ≠ 0 ∧ p.quantity - p.quantityUsed < quantity) →
      Passes (reservedItem p quantity).constraints →
      Q p.price (s.put (.priceItem c productId) (some (reservedItem p quantity)))) :
    wp R (reserveLine o (s.contracts.find? c) c productId quantity) Q E s := by
  rw [reserveLine, wp_bind, wp_locked, wp_bind]
  apply wp_orRaise_sure
  · apply hsure.imp
    rintro ⟨k, p, hk, hactive, -⟩
    change ((s.contracts.find? c).filter Contract.isActive).isSome = true
    rw [hk, Option.filter_some, if_pos hactive, Option.isSome_some]
  intro k hk
  obtain ⟨hfind, hactive⟩ := Option.filter_eq_some_iff.mp hk
  have hfind : s.contracts.find? c = some k := hfind
  rw [hfind, Option.getD_some]
  dsimp only
  rw [wp_bind]
  apply wp_sure
  · apply hsure.imp
    rintro ⟨k', p, hk', -, hactive', -⟩ hstatus
    cases hfind.symm.trans hk'
    exact hstatus hactive'
  intro hstatus
  rw [wp_bind]
  apply wp_getForProduct hexact
  rw [wp_bind, wp_orRaise]
  cases hrow : (s.priceItems.find? (c, productId)).filter PriceItem.isActive with
  | none =>
    constructor
    · intro _
      apply hsure.err
      rintro ⟨k', p, -, -, -, hp, hpactive, -⟩
      rw [hp, Option.filter_some, if_pos hpactive] at hrow
      cases hrow
    · intro p hp
      cases hp
  | some p =>
    obtain ⟨hp, hpactive⟩ := Option.filter_eq_some_iff.mp hrow
    have hsame : ∀ p', s.priceItems.find? (c, productId) = some p' → p' = p := by
      intro p' hp'
      exact Option.some.inj (hp'.symm.trans hp)
    have hlookup : ((some p).toList.map (Prod.mk productId)).lookup productId = some p := by
      simp
    rw [hlookup]
    constructor
    · intro hnone
      cases hnone
    · rintro _ ⟨rfl⟩
      rw [wp_bind]
      apply wp_sure
      · apply hsure.imp
        rintro ⟨k', p', -, -, -, hp', -, hroom, -⟩ hfull
        obtain rfl := hsame p' hp'
        exact hroom hfull
      intro hroom
      rw [wp_bind]
      apply wp_increment hlax hp hquantity
      · apply hsure.imp
        rintro ⟨k', p', -, -, -, hp', -, -, hpasses⟩
        obtain rfl := hsame p' hp'
        exact hpasses
      · intro hpasses
        exact hQ k p hfind hactive (not_not.mp hstatus) hp hpactive hroom hpasses

/-- The product of a line is found exactly if it is on sale. -/
theorem head?_onSale (productId : Uuid) : ((s.products.rows.filter fun r =>
    r.1 ∈ [productId] && r.2.isActive).head?).isSome = true ↔
      (s.products.find? productId).any Product.isActive = true := by
  rw [List.isSome_head?, ne_eq, List.filter_eq_nil_iff, Option.any_eq_true]
  push Not
  constructor
  · rintro ⟨r, hr, hmatch⟩
    rw [Bool.and_eq_true, decide_eq_true_eq, List.mem_singleton] at hmatch
    exact ⟨r.2, (Table.mem_rows_iff _ _ _).mp (hmatch.1 ▸ hr), hmatch.2⟩
  · rintro ⟨product, hproduct, hactive⟩
    refine ⟨(productId, product), (Table.mem_rows_iff _ _ _).mpr hproduct, ?_⟩
    simp [hactive]

/-- The line and the total are written if they satisfy their constraints. -/
theorem wp_writeLine (hlax : R.Lax) {env : Env} {id : Uuid} {o : Order}
    (ho : s.orders.find? id = some o) {price : ℤ} {data : OrderUpdate}
    {existing : Option (OrderItem × ℕ)}
    (hfound : ∀ i index, existing = some (i, index) → o.items[index]? = some i)
    (hreason : data.cancellationReason = none) {total : ℤ} (htotal : data.totalAmount = some total)
    (hsure : Sure E (Passes (writtenLine productId quantity price existing).constraints ∧
      int64 total = true)) {Q : Unit → Db → Prop}
    (hQ : ∀ orders, Passes (writtenLine productId quantity price existing).constraints →
      int64 total = true → Q () { s with orders }) :
    wp R (do
      addLine id existing productId quantity price
      issue (.order id) (.update data env.now)) Q E s := by
  have hupdate : ∀ items, Passes (writtenLine productId quantity price existing).constraints →
      wp R (issue (.order id) (.update data env.now)) Q E
        (s.put (.order id) (some { o with items := items })) := by
    intro items hpasses
    have hexec : exec (.order id) (.update data env.now)
        ((s.put (.order id) (some { o with items := items })).get (.order id)) =
        checked (({ o with items := items } : Order).set data env.now)
          [(int64 (({ o with items := items } : Order).set data env.now).totalAmount,
              .outOfRange "orders.total_amount"),
            (fits 500 data.cancellationReason, .stringTooLong "orders.cancellation_reason")] := by
      change (OrderStmt.update data env.now).exec
        ((s.orders.put id (some { o with items := items })).find? id) = _
      rw [Table.find?_put_self]
      rfl
    have hset : (({ o with items := items } : Order).set data env.now).totalAmount = total := by
      rw [Order.set, htotal, Option.getD_some]
    apply wp_checked hlax hexec
    · apply hsure.imp
      rintro ⟨-, hfits⟩
      rw [hset, hreason]
      simp [hfits, fits]
    · intro hchecks
      have hfits := hchecks _ List.mem_cons_self
      rw [hset] at hfits
      exact hQ _ hpasses hfits
  rw [wp_bind]
  unfold addLine
  cases existing with
  | none =>
    have hexec : exec (.order id) (.addItems [⟨productId, quantity, price⟩]) (s.get (.order id)) =
        checked { o with items := o.items ++ [⟨productId, quantity, price⟩] }
          (OrderItem.constraints ⟨productId, quantity, price⟩) := by
      change (OrderStmt.addItems _).exec (s.orders.find? id) = _
      rw [ho, OrderStmt.exec, List.flatMap_singleton]
    apply wp_checked hlax hexec
    · exact hsure.imp fun h => h.1
    · exact hupdate _
  | some x =>
    obtain ⟨i, index⟩ := x
    have hi := hfound i index rfl
    have hexec : exec (.order id) (.updateQuantity index (i.quantity + quantity)) (s.get (.order id)) =
        checked { o with items := o.items.set index { i with quantity := i.quantity + quantity } }
          (OrderItem.constraints { i with quantity := i.quantity + quantity }) := by
      change (OrderStmt.updateQuantity _ _).exec (s.orders.find? id) = _
      rw [ho]
      simp only [OrderStmt.exec, hi]
    apply wp_checked hlax hexec
    · exact hsure.imp fun h => h.1
    · exact hupdate _

/-- A product is added to an order of a contract exactly if the order admits it. -/
theorem wp_addProductToOrder (hexact : R.Exact) (hlax : R.Lax) {env : Env} {id : Uuid} {o : Order}
    {u : Option Uuid} (ho : s.orders.find? id = some o) (hc : o.contract? = some c)
    (hsure : Sure E (∃ k p, Admits id productId quantity u s o c k p)) {Q : Unit → Db → Prop}
    (hQ : ∀ k p s', Admits id productId quantity u s o c k p →
      s'.priceItems = s.priceItems.put (c, productId) (some (reservedItem p quantity)) → Q () s') :
    wp R (addProductToOrder env id productId quantity u) Q E s := by
  rw [addProductToOrder, wp_bind]
  apply wp_sure
  · apply hsure.imp
    rintro ⟨k, p, h⟩ hquantity
    have hpos := h.quantity_pos
    omega
  intro hquantity
  have hquantity := not_le.mp hquantity
  rw [wp_bind, getByIds]
  refine wp_ask_exact hexact ?_
  rw [wp_bind]
  apply wp_orRaise_sure
  · apply hsure.imp
    rintro ⟨k, p, h⟩
    exact (head?_onSale productId).mpr h.onSale
  intro product hproduct
  have honSale := (head?_onSale productId).mp (Option.isSome_iff_exists.mpr ⟨product, hproduct⟩)
  rw [wp_bind]
  refine wp_ask_exact hexact ?_
  have hcontractId : o.contractId = some c := by
    unfold Order.contract? at hc
    split at hc
    · exact hc
    · cases hc
  rw [ho, Option.bind_some, hcontractId, Option.bind_some, wp_bind, getOrderLocked, wp_bind,
    wp_locked, wp_orRaise]
  constructor
  · intro hnone
    exact absurd (ho.symm.trans hnone) (by simp)
  intro o' ho'
  obtain rfl : o = o' := Option.some.inj (ho.symm.trans ho')
  rw [wp_bind, ensureEditable, wp_bind]
  apply wp_sure
  · apply hsure.imp
    rintro ⟨k, p, h⟩ hdenied
    exact h.allowed hdenied
  intro hallowed
  apply wp_sure
  · apply hsure.imp
    rintro ⟨k, p, h⟩ hstatus
    exact hstatus h.status_eq
  intro hstatus
  -- what follows, for the line that is found
  have hrest : ∀ existing : Option (OrderItem × ℕ),
      (∀ price, resultingLine o productId quantity price =
        some (writtenLine productId quantity price existing)) →
      (∀ i index, existing = some (i, index) → o.items[index]? = some i) →
      wp R (do
        let currentPrice ← linePrice o (s.contracts.find? c) product.2 productId quantity
        addLine id existing productId quantity currentPrice
        issue (.order id)
          (.update { totalAmount := some (o.totalAmount + currentPrice * quantity),
                     quantitiesReserved := o.contract?.map fun _ => true } env.now)) Q E s := by
    intro existing hresult hfound
    rw [wp_bind, linePrice, hc]
    apply wp_reserveLine hexact hlax hquantity
    · apply hsure.imp
      rintro ⟨k, p, h⟩
      exact ⟨k, p, h.contract, h.contract_active, h.contract_status, h.item, h.item_active, h.quota,
        h.counter_fits⟩
    intro k p hk hkactive hkstatus hp hpactive hroom hpasses
    apply wp_writeLine hlax (o := o) (by exact ho) hfound rfl rfl
    · apply hsure.imp
      rintro ⟨k', p', h⟩
      obtain rfl := Option.some.inj (h.item.symm.trans hp)
      obtain ⟨i, hi, hipasses⟩ := h.line
      rw [hresult] at hi
      obtain rfl := Option.some.inj hi
      exact ⟨hipasses, h.total⟩
    intro orders hlinePasses htotal
    apply hQ k p _ _ rfl
    constructor
    · exact hquantity
    · exact honSale
    · exact ho
    · exact hallowed
    · exact not_not.mp hstatus
    · exact hc
    · exact hk
    · exact hkactive
    · exact hkstatus
    · exact hp
    · exact hpactive
    · exact hroom
    · exact hpasses
    · exact ⟨_, hresult p.price, hlinePasses⟩
    · exact htotal
  rw [wp_bind]
  apply wp_linesOf
  · intro hmany
    apply hsure.err
    rintro ⟨k, p, h⟩
    obtain ⟨i, hi, -⟩ := h.line
    unfold resultingLine at hi
    split at hi
    · next hnil => simp [hnil] at hmany
    · next hone => simp [hone] at hmany
    · cases hi
  · intro hnew
    apply hrest none
    · intro price
      have hnil : o.items.filter (fun i => i.productId = productId) = [] := by
        rw [List.filter_eq_nil_iff]
        intro i hi
        simpa using hnew i hi
      rw [resultingLine, hnil]
      rfl
    · intro i index hsome
      cases hsome
  · intro i index hindex hproductId hone
    apply hrest (some (i, index))
    · intro price
      rw [resultingLine, hone]
      rfl
    · rintro _ _ ⟨rfl⟩
      exact hindex

end Additions

/-! ## Reserving requests -/

/-- A product is added, past the end of the contract, to an order that admits it. -/
def AddsPastEnd (r : Request) (s : Db) : Prop :=
  ∃ id productId quantity u o c k p endDate,
    r.op = .addProductToOrder id productId quantity u ∧
      Admits id productId quantity u s o c k p ∧ k.endDate = some endDate ∧ endDate < dateOf r.env.now

section Requests

variable {r : Request} {s : Db}

/-- A request that raises counters of contracts in force only adds nothing past an end. -/
theorem not_addsPastEnd (h : ReservesInForce r s) : ¬ AddsPastEnd r s := by
  rintro ⟨id, productId, quantity, u, o, c, k, p, endDate, hop, hadmits, hend, hpast⟩
  have hexact : Regime.Exact (S := schema) Regime.serial := Regime.serialAsserting_exact _
  have hprogram : program r = addProductToOrder r.env id productId quantity u := by
    rw [program, hop]
  have hwp : wp Regime.serial (program r) (fun _ s' =>
      s'.priceItems = s.priceItems.put (c, productId) (some (reservedItem p quantity)))
      (fun _ => False) s := by
    rw [hprogram]
    apply wp_addProductToOrder hexact Regime.serial_lax hadmits.order hadmits.ofContract
    · exact .inl ⟨k, p, hadmits⟩
    · intro k' p' s' hadmits' hput
      obtain rfl := Option.some.inj (hadmits.item.symm.trans hadmits'.item)
      exact hput
  rw [wp_serial_iff] at hwp
  cases hrun : (program r).run s with
  | error e =>
    rw [hrun] at hwp
    exact hwp
  | ok x =>
    rw [hrun] at hwp
    have hraised : counter s (c, productId) < counter x.2 (c, productId) := by
      have hpos := hadmits.quantity_pos
      have hput : x.2.priceItems = _ := hwp
      unfold counter
      rw [hput, Table.find?_put_self, hadmits.item]
      dsimp only [Option.elim_some, reservedItem]
      omega
    obtain ⟨k', hk', -, -, hend'⟩ := h x.2 hrun c productId hraised
    obtain rfl := Option.some.inj (hadmits.contract.symm.trans hk')
    rw [hend, Option.all_some, decide_eq_true_eq] at hend'
    omega

/-- A product is added within the life of the contract, or to an order without one. -/
theorem addition_inForce (hs : Counted s) {id productId : Uuid} {quantity : ℤ} {u : Option Uuid}
    (hop : r.op = .addProductToOrder id productId quantity u) (hnot : ¬ AddsPastEnd r s) :
    ReservesInForce r s := by
  intro s' hrun c p hraised
  have hexact : Regime.Exact (S := schema) Regime.serial := Regime.serialAsserting_exact _
  have hprogram : program r = addProductToOrder r.env id productId quantity u := by
    rw [program, hop]
  rw [hprogram] at hrun
  by_cases hcontract : ∃ o c', s.orders.find? id = some o ∧ o.contract? = some c'
  · obtain ⟨o, c', ho, hc'⟩ := hcontract
    have hwp : wp Regime.serial (addProductToOrder r.env id productId quantity u) (fun _ (s' : Db) =>
        ∃ k p, Admits id productId quantity u s o c' k p ∧
          s'.priceItems = s.priceItems.put (c', productId) (some (reservedItem p quantity)))
        (fun _ => True) s := by
      apply wp_addProductToOrder hexact Regime.serial_lax ho hc'
      · exact .inr fun _ => trivial
      · exact fun k p s' hadmits hput => ⟨k, p, hadmits, hput⟩
    obtain ⟨k, row, hadmits, hput⟩ := wp_serial_run hwp hrun
    have hc : c = c' := by
      by_contra hne
      have hkey : (c, p) ≠ (c', productId) := fun heq => hne (Prod.mk.inj heq).1
      unfold counter at hraised
      rw [hput, Table.find?_put_ne _ hkey] at hraised
      omega
    subst hc
    refine ⟨k, hadmits.contract, hadmits.contract_status, hadmits.contract_active, ?_⟩
    cases hend : k.endDate with
    | none => rfl
    | some endDate =>
      rw [Option.all_some, decide_eq_true_eq]
      by_contra hpast
      exact hnot ⟨id, productId, quantity, u, o, c, k, row, endDate, hop, hadmits, hend,
        not_le.mp hpast⟩
  · have hchange := wp_serial_run (addProductToOrder_change Tame.serial hs.ordersOk hop) hrun
    have hle : counter s' (c, p) ≤ counter s (c, p) := by
      apply counter_le_of_change hs hchange
      · intro clientId dto hop'
        cases hop.symm.trans hop'
      · intro id' p' q' u' o hop' ho
        cases hop.symm.trans hop'
        cases hc : o.contract? with
        | none => rfl
        | some c' => exact absurd ⟨o, c', ho, hc⟩ hcontract
    omega

/-- In every state that is reached, a request raises counters of contracts in
force only, unless it adds a product past the end of a contract. -/
theorem reserves_in_force_iff (s : Db) {σ : Sys schema Request}
    (h : Reach program (fun _ _ _ => True) (Sys.init (fresh s)) σ) (r : Request) :
    ReservesInForce r σ.db ↔ ¬ AddsPastEnd r σ.db := by
  have hs := counted_of_reach s h
  constructor
  · exact not_addsPastEnd
  intro hnot
  by_cases hadd : ∃ id p q u, r.op = .addProductToOrder id p q u
  · obtain ⟨id, p, q, u, hop⟩ := hadd
    exact addition_inForce hs hop hnot
  intro s' hrun c p hraised
  by_cases hcreate : ∃ clientId dto, r.op = .createOrder clientId dto
  · obtain ⟨clientId, dto, hop⟩ := hcreate
    have hprogram : program r = createOrder r.env clientId dto := by rw [program, hop]
    rw [hprogram] at hrun
    exact wp_serial_run (createOrder_inForce Tame.serial) hrun c p hraised
  · have hchanges : Changes Regime.serial r σ.db s' :=
      wp_serial_run (Q := fun _ s' => Changes Regime.serial r σ.db s')
        (program_changes Tame.serial hs.ordersOk fun s₁ _ =>
          releasable_of_lax Regime.serial_lax s₁) hrun
    have hle := counter_le_of_changes hs hchanges
      (fun clientId dto hop => hcreate ⟨clientId, dto, hop⟩)
      (fun id p q u hop => hadd ⟨id, p, q, u, hop⟩) (c, p)
    omega

end Requests

/-! ## A late addition -/

/-- The contract of the office ends on the second day. -/
def endingDb : Db :=
  { sampleDb with
    contracts := ⟨[(31, ⟨7, "A", .active, 0, some 2, 10, true, none, none, none, none, none, none,
      []⟩)], by decide⟩ }

/-- The office orders one coffee while the contract lasts. -/
def orderInTime : List (ReadCommitted.Action Request) :=
  alone 0 4 (.setPriceItem 31 23 60 10) ++ alone 1 12 (coffee 1 one_piece)

/-- Another coffee is added on the fifth day. -/
def lateAddition : Request := sampleRequest 2 (5 * dayLength) (.addProductToOrder 20000 23 1 (some 7))

theorem reserves_in_force_iff_sample :
    ∃ σ, orderInTime.foldlM (Sys.exec program) (Sys.init (fresh endingDb)) = some σ ∧
      (ReservesInForce lateAddition σ.db ↔ ¬ AddsPastEnd lateAddition σ.db) := by
  have heval : (orderInTime.foldlM (Sys.exec program) (Sys.init (fresh endingDb))).isSome = true := by
    decide +kernel
  obtain ⟨σ, hrun⟩ := Option.isSome_iff_exists.mp heval
  exact ⟨σ, hrun, reserves_in_force_iff endingDb (Reach.of_actions _ hrun) lateAddition⟩

/-- The addition succeeds and takes from the quota of a contract that has ended. -/
theorem late_addition_reserves :
    ¬ ∀ (s : Db) (σ : Sys schema Request),
      Reach program (fun _ _ _ => True) (Sys.init (fresh s)) σ → ∀ r, ReservesInForce r σ.db := by
  intro hclaim
  have heval : (orderInTime.foldlM (Sys.exec program) (Sys.init (fresh endingDb))).map (fun σ =>
      (counter σ.db (31, 23), (σ.db.contracts.find? 31).map Contract.endDate,
        ((program lateAddition).run σ.db).toOption.map fun x => counter x.2 (31, 23))) =
      some (1, some (some 2), some 2) := by decide +kernel
  obtain ⟨σ, hrun, heval⟩ := Option.map_eq_some_iff.mp heval
  obtain ⟨hbefore, heval⟩ := Prod.mk.inj heval
  obtain ⟨hend, hafter⟩ := Prod.mk.inj heval
  cases hlate : (program lateAddition).run σ.db with
  | error e =>
    rw [hlate] at hafter
    cases hafter
  | ok x =>
    rw [hlate] at hafter
    have hafter : counter x.2 (31, 23) = 2 := Option.some.inj hafter
    obtain ⟨k, hk, -, -, hlasts⟩ := hclaim endingDb σ (Reach.of_actions _ hrun) lateAddition x.2 hlate
      31 23 (by omega)
    rw [hk, Option.map_some, Option.some.injEq] at hend
    rw [hend] at hlasts
    revert hlasts
    decide

end Munavvar.ExpiredContracts
