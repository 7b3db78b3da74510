import Munavvar.LockOrder
import Munavvar.Operations
import Munavvar.Bag
import Munavvar.OrderEffects

/-!
# Locks on the rows of a contract

Orders come first, then the contract, then its price items by product. Placing
an order and adding a product keep to this order: the price list is locked
product by product, in ascending order. Releases lock the price items in the
order of the lines, and the expiry of contracts cancels orders before it locks
the contract; these locks are exempt here.
-/

namespace Munavvar.ContractLocks

open Munavvar.KeyedTable
open Munavvar.Transaction
open Munavvar.Transaction.Prog
open Munavvar.ReadCommitted
open Munavvar.Database
open Munavvar.StockLedger
open Munavvar.FinancialLedger
open Munavvar.Quota
open Munavvar.OrderQueries
open Munavvar.Fulfillment
open Munavvar.OrderService
open Munavvar.ContractService
open Munavvar.Operations
open Munavvar.Discipline
open Munavvar.LockOrder

/-- The place of a row among those of a contract. -/
def contractRank (c : Uuid) : Key → Option ℕ
  | .order _ => some 0
  | .contract c' => if c' = c then some 1 else none
  | .priceItem c' p => if c' = c then some (p + 2) else none
  | _ => none

/-- Statements that make a row. -/
def isInsert : (k : Key) → Stmt k → Bool
  | .order _, .insert _ => true
  | .contract _, .insert _ => true
  | .priceItem _ _, .insert _ _ _ => true
  | _, _ => false

/-- Locks that are not taken in order: the price items of a release, and the
contract of the expiry job. -/
def outOfOrder : Operation → Key → Prop
  | .removeProductFromOrder _ _ _, .priceItem _ _ => True
  | .updateStatus _ _ _ _ _, .priceItem _ _ => True
  | .cancelOrder _ _ _, .priceItem _ _ => True
  | .expireStaleOrders _ _ _, .priceItem _ _ => True
  | .suspendContract _ _ _, .priceItem _ _ => True
  | .terminateContract _ _ _, .priceItem _ _ => True
  | .runExpireJob, .priceItem _ _ => True
  | .runExpireJob, .contract _ => True
  | _, _ => False

/-- The operations that stop a contract. -/
def stops : Operation → Prop
  | .suspendContract _ _ _ => True
  | .terminateContract _ _ _ => True
  | .runExpireJob => True
  | _ => False

/-- What is granted to an operation. -/
structure Licence where
  /-- Locks that it may wait for out of order. -/
  exempt : Key → Prop
  /-- Whether it may stop a contract. -/
  stops : Prop

/-- What is granted to the operations of the system. -/
def licence (op : Operation) : Licence := ⟨outOfOrder op, stops op⟩

/-- An order is made active and under the lock of its contract; a contract is
made as a draft, and stopped by those who may. -/
def Fitting (X : Licence) (H : Key → Prop) : (k : Key) → Stmt k → Prop
  | .order _, .insert o => o.isActive = true ∧ ∀ c, o.contractId = some c → H (.contract c)
  | .contract _, .insert x => x.status = .draft
  | .contract _, .update data => X.stops ∨ data.status = .active
  | _, _ => True

/-- Some locks and one more. -/
abbrev holding (H : Key → Prop) (k : Key) : Key → Prop := taking (S := schema) H k

/-- A lock that is held already, or above all that are held. -/
abbrev InOrder (c : Uuid) (H : Key → Prop) (k : Key) : Prop :=
  Rises (S := schema) (contractRank c) H k

/-- Statements that fit whoever executes them. -/
def isFree : (k : Key) → Stmt k → Bool
  | .order _, .insert _ => false
  | .contract _, .insert _ => false
  | .contract _, .update _ => false
  | _, _ => true

/-- The rows of a contract are locked in order, made and stopped as they should be. -/
def contractRows (c : Uuid) (X : Licence) : Discipline schema where
  rows _ _ := True
  locks H k := X.exempt k ∨ InOrder c H k
  writes H k st := Fitting X H k st ∧ (isInsert k st = true ∨ X.exempt k ∨ InOrder c H k)

section Parts

variable {c : Uuid} {X : Licence} {d : Directory} {H H' : Key → Prop} {α β : Type}

/-! ## Held locks -/

/-- No more rows with a rank are held. -/
def NoMore (c : Uuid) (H H' : Key → Prop) : Prop :=
  ∀ k, (contractRank c k).isSome = true → H' k → H k

/-- No price item is held. -/
def Low (c : Uuid) (H : Key → Prop) : Prop := ∀ k n, H k → contractRank c k = some n → n ≤ 1

theorem NoMore.refl (H : Key → Prop) : NoMore c H H := fun _ _ h => h

theorem NoMore.trans {H'' : Key → Prop} (h : NoMore c H H') (h' : NoMore c H' H'') :
    NoMore c H H'' := fun k hk hk' => h k hk (h' k hk hk')

theorem NoMore.low (h : NoMore c H H') (hlow : Low c H) : Low c H' :=
  fun k n hk hn => hlow k n (h k (hn ▸ rfl) hk) hn

theorem noMore_taking {k : Key} (h : contractRank c k = none ∨ H k) : NoMore c H (holding H k) := by
  rintro j hj (hheld | rfl)
  · exact hheld
  · rcases h with hnone | hheld
    · rw [hnone] at hj
      cases hj
    · exact hheld

theorem Low.order (h : Low c H) (id : Uuid) : Low c (holding H (.order id)) := by
  rintro k n (hk | rfl) hn
  · exact h k n hk hn
  · cases hn
    omega

theorem Low.contract (h : Low c H) (c' : Uuid) : Low c (holding H (.contract c')) := by
  rintro k n (hk | rfl) hn
  · exact h k n hk hn
  · rw [contractRank] at hn
    split at hn <;> cases hn
    omega

/-- The contract may be waited for while no price item is held. -/
theorem Low.rises_contract (h : Low c H) (c' : Uuid) :
    InOrder c H (.contract c') := by
  intro n hn
  rw [contractRank] at hn
  split at hn
  · next hc =>
    subst hc
    cases hn
    by_cases hheld : H (.contract c')
    · exact .inl hheld
    · refine .inr fun k m hk hm => ?_
      have hle := h k m hk hm
      cases k with
      | order id =>
        cases hm
        omega
      | contract c'' =>
        rw [contractRank] at hm
        split at hm
        · next hc =>
          subst hc
          exact absurd hk hheld
        · cases hm
      | priceItem c'' p =>
        rw [contractRank] at hm
        split at hm <;> cases hm
        omega
      | _ => cases hm
  · cases hn

theorem fitting_of_isFree {k : Key} {st : Stmt k} (h : isFree k st = true) : Fitting X H k st := by
  cases k with
  | order id => cases st <;> first | exact trivial | cases h
  | contract id => cases st <;> first | exact trivial | cases h
  | _ => exact trivial

/-! ## Parts on other rows -/

/-- A part that takes no lock with a rank. -/
def Aside (c : Uuid) (X : Licence) (d : Directory) (p : Uow α) : Prop :=
  ∀ H, Obeys (contractRows c X) d p (fun _ H' => NoMore c H H') H

theorem Aside.obeys {p : Uow α} (h : Aside c X d p) {A : α → (Key → Prop) → Prop}
    (hA : ∀ a H', NoMore c H H' → (∀ k, H k → H' k) → A a H') : Obeys (contractRows c X) d p A H :=
  (h H).and_held.mono fun a H' h' => hA a H' h'.1 h'.2

theorem Aside.bind {p : Uow α} {f : α → Uow β} (hp : Aside c X d p) (hf : ∀ a, Aside c X d (f a)) :
    Aside c X d (p >>= f) := by
  intro H
  refine (obeys_bind _ _).mpr (hp.obeys fun a H' hno _ => ?_)
  exact (hf a H').mono fun b H'' h => hno.trans h

theorem aside_ret (a : α) : Aside c X d (ret a) := fun H => NoMore.refl H

theorem aside_ask (f : Db → α) : Aside c X d (select f) := fun H _ _ => NoMore.refl H

theorem aside_lock {k : Key} (h : contractRank c k = none) : Aside c X d (forUpdate k) :=
  fun _ => ⟨.inr (rises_of_unranked h), fun _ _ => noMore_taking (.inl h)⟩

theorem aside_issue {k : Key} {st : Stmt k} (h : contractRank c k = none)
    (hst : isFree k st = true) : Aside c X d (issue k st) :=
  fun _ => ⟨⟨fitting_of_isFree hst, .inr (.inr (rises_of_unranked h))⟩, noMore_taking (.inl h)⟩

theorem aside_raiseIf (b : Prop) [Decidable b] (e : Err) :
    Aside c X d (raiseIf (S := schema) b e) := fun H => (obeys_raiseIf _ _).mpr fun _ => NoMore.refl H

theorem aside_orRaise (o : Option α) (e : Err) : Aside c X d (orRaise (S := schema) o e) :=
  fun H => (obeys_orRaise _ _).mpr fun _ _ => NoMore.refl H

theorem aside_whenever {b : Prop} [Decidable b] {p : Uow Unit} (h : Aside c X d p) :
    Aside c X d (whenever (S := schema) b p) :=
  fun H => (obeys_whenever _ _).mpr ⟨fun _ => h H, fun _ => NoMore.refl H⟩

theorem aside_whenSome {o : Option β} {f : β → Uow Unit} (h : ∀ b, Aside c X d (f b)) :
    Aside c X d (whenSome o f) :=
  fun H => (obeys_whenSome _ _).mpr ⟨fun b _ => h b H, fun _ => NoMore.refl H⟩

theorem aside_forEach {bs : List β} {f : β → Uow Unit} (h : ∀ b, Aside c X d (f b)) :
    Aside c X d (forEach bs f) := by
  intro H
  refine obeys_forEach (S := schema) (fun _ H' => NoMore c H H') (fun b _ H' hH' => ?_)
    (NoMore.refl H)
  exact (h b H').mono fun _ H'' h => NoMore.trans hH' h

/-- At most one row is returned. -/
theorem obeys_scalarOneOrNone {l : List α} {A : Option α → (Key → Prop) → Prop} (hnone : A none H)
    (hsome : ∀ a ∈ l, A (some a) H) : Obeys (contractRows c X) d (scalarOneOrNone l) A H := by
  match l with
  | [] => exact hnone
  | [a] => exact hsome a List.mem_cons_self
  | _ :: _ :: _ => exact trivial

theorem aside_scalarOneOrNone (l : List α) : Aside c X d (scalarOneOrNone l) := fun H =>
  obeys_scalarOneOrNone (NoMore.refl H) fun _ _ => NoMore.refl H

theorem aside_insertStockTransactions (rows : List (Uuid × StockTransaction)) :
    Aside c X d (insertStockTransactions rows) := by
  refine (aside_forEach fun r => aside_issue rfl rfl).bind fun _ => aside_forEach fun r => ?_
  refine Aside.bind ?_ fun _ => ?_
  · refine (aside_ask _).bind fun _ => (aside_ask _).bind fun _ => ?_
    exact (aside_raiseIf _ _).bind fun _ => (aside_raiseIf _ _).bind fun _ => aside_raiseIf _ _
  · refine (aside_forEach fun leg => aside_issue rfl rfl).bind fun _ => ?_
    refine (aside_lock rfl).bind fun _ => (aside_lock rfl).bind fun _ => ?_
    exact (aside_ask _).bind fun _ => aside_raiseIf _ _

theorem aside_createStockTransfer (env : Env) (n : ℕ) (fromId toId : Uuid) (type : TransferType)
    (items : List (Uuid × ℤ)) (createdById : Uuid) (acceptedById orderId : Option Uuid)
    (reason : Option String) :
    Aside c X d (createStockTransfer env n fromId toId type items createdById acceptedById orderId
      reason) := by
  refine (aside_ask _).bind fun _ => (aside_issue rfl rfl).bind fun _ => ?_
  refine (aside_raiseIf _ _).bind fun _ => (aside_raiseIf _ _).bind fun _ => ?_
  exact (aside_issue rfl rfl).bind fun _ => aside_insertStockTransactions _

theorem aside_getInventoryWithBalances (id : Uuid) (type : Option InventoryType) (lock : Bool) :
    Aside c X d (getInventoryWithBalances id type lock) := by
  refine (aside_whenever ((aside_lock rfl).bind fun _ => aside_ret _)).bind fun _ => ?_
  exact (aside_ask _).bind fun _ => (aside_ask _).bind fun _ => aside_ret _

theorem aside_getVendorInventory : Aside c X d getVendorInventory := by
  refine (aside_ask _).bind fun _ => (aside_scalarOneOrNone _).bind fun _ => ?_
  exact aside_orRaise _ _

theorem aside_exchangeTara (env : Env) (id : Uuid) (items : List Item)
    (exchange : List ExchangeItem) (capitalize : Bool) (createdById : Uuid) :
    Aside c X d (exchangeTara env id items exchange capitalize createdById) := by
  unfold exchangeTara
  split
  · exact aside_ret _
  · refine (aside_getInventoryWithBalances _ _ _).bind fun _ => (aside_orRaise _ _).bind fun _ => ?_
    refine (aside_raiseIf _ _).bind fun _ => (aside_whenever ?_).bind fun _ => aside_ret _
    exact aside_getVendorInventory.bind fun _ => aside_createStockTransfer _ _ _ _ _ _ _ _ _ _

theorem aside_deliverStock (env : Env) (id : Uuid) (o : Order) (courierId : Uuid) :
    Aside c X d (deliverStock env id o courierId) := by
  refine ((aside_ask _).bind fun _ => aside_scalarOneOrNone _).bind fun _ => ?_
  refine (aside_orRaise _ _).bind fun _ => (aside_getInventoryWithBalances _ _ _).bind fun _ => ?_
  refine (aside_orRaise _ _).bind fun _ => (aside_raiseIf _ _).bind fun _ => ?_
  refine (aside_ask _).bind fun _ => (aside_createStockTransfer _ _ _ _ _ _ _ _ _ _).bind fun _ => ?_
  exact aside_whenever (aside_createStockTransfer _ _ _ _ _ _ _ _ _ _)

theorem aside_settle (env : Env) (id : Uuid) (o : Order) (missingClient debtReason : String)
    (payment : Directory → Account → Except Err (List FinancialTransaction)) :
    Aside c X d (settle env id o missingClient debtReason payment) := by
  refine (aside_ask _).bind fun _ => (aside_orRaise _ _).bind fun _ => ?_
  refine (aside_orRaise _ _).bind fun _ => Aside.bind (p := fromExcept _) ?_ fun _ => ?_
  · exact fun H => (obeys_fromExcept _).mpr fun _ _ => NoMore.refl H
  · refine (aside_forEach fun r => aside_issue rfl rfl).bind fun _ => aside_forEach fun r => ?_
    refine Aside.bind ?_ fun _ => ?_
    · refine (aside_ask _).bind fun _ => (aside_ask _).bind fun _ => ?_
      exact (aside_raiseIf _ _).bind fun _ => (aside_raiseIf _ _).bind fun _ => aside_raiseIf _ _
    · refine (aside_raiseIf _ _).bind fun _ => (aside_raiseIf _ _).bind fun _ => aside_whenever ?_
      refine (aside_lock rfl).bind fun _ => (aside_lock rfl).bind fun _ => ?_
      exact (aside_issue rfl rfl).bind fun _ => aside_issue rfl rfl

theorem aside_handleWarehousePickup (env : Env) (id : Uuid) (o : Order) (completedById : Uuid) :
    Aside c X d (handleWarehousePickup env id o completedById) := by
  refine (aside_orRaise _ _).bind fun _ => Aside.bind ?_ fun _ => aside_settle _ _ _ _ _ _
  refine (aside_getInventoryWithBalances _ _ _).bind fun _ => (aside_orRaise _ _).bind fun _ => ?_
  refine (aside_raiseIf _ _).bind fun _ => (aside_ask _).bind fun _ => ?_
  refine (aside_whenever ?_).bind fun _ => ?_
  · exact aside_getVendorInventory.bind fun _ => aside_createStockTransfer _ _ _ _ _ _ _ _ _ _
  · refine (aside_createStockTransfer _ _ _ _ _ _ _ _ _ _).bind fun _ => ?_
    exact aside_whenever (aside_createStockTransfer _ _ _ _ _ _ _ _ _ _)

/-! ## Parts on locked rows -/

/-- A part that keeps to the order when some locks are held, whatever else is. -/
def Under (c : Uuid) (X : Licence) (d : Directory) (H : Key → Prop) (p : Uow α) : Prop :=
  ∀ H', (∀ k, H k → H' k) → Obeys (contractRows c X) d p (fun _ _ => True) H'

theorem Under.bind {p : Uow α} {f : α → Uow β} (hp : Under c X d H p)
    (hf : ∀ a, Under c X d H (f a)) : Under c X d H (p >>= f) := by
  intro H' hH'
  refine (obeys_bind _ _).mpr ((hp H' hH').and_held.mono fun a H'' h => ?_)
  exact hf a H'' fun k hk => h.2 k (hH' k hk)

theorem Aside.under {p : Uow α} (h : Aside c X d p) : Under c X d H p :=
  fun _ _ => h.obeys fun _ _ _ _ => trivial

theorem under_lock {k : Key} (h : X.exempt k ∨ H k) : Under c X d H (forUpdate k) :=
  fun _ hH' => ⟨h.imp_right fun hk => rises_of_held (hH' k hk), fun _ _ => trivial⟩

/-- What fits under some locks fits under more. -/
theorem Fitting.mono {k : Key} {st : Stmt k} (h : Fitting X H k st) (hle : ∀ j, H j → H' j) :
    Fitting X H' k st := by
  cases k with
  | order id =>
    cases st with
    | insert o => exact ⟨h.1, fun c hc => hle _ (h.2 c hc)⟩
    | _ => exact trivial
  | contract id => cases st <;> exact h
  | _ => exact trivial

theorem under_write {k : Key} {st : Stmt k} (h : X.exempt k ∨ H k) (hst : Fitting X H k st) :
    Under c X d H (issue k st) :=
  fun _ hH' =>
    ⟨⟨hst.mono hH', .inr (h.imp_right fun hk => rises_of_held (hH' k hk))⟩, trivial⟩

theorem under_issue {k : Key} {st : Stmt k} (h : X.exempt k ∨ H k) (hst : isFree k st = true) :
    Under c X d H (issue k st) := under_write h (fitting_of_isFree hst)

theorem under_whenever {b : Prop} [Decidable b] {p : Uow Unit} (h : Under c X d H p) :
    Under c X d H (whenever (S := schema) b p) :=
  fun H' hH' => (obeys_whenever _ _).mpr ⟨fun _ => h H' hH', fun _ => trivial⟩

theorem under_whenSome {o : Option β} {f : β → Uow Unit} (h : ∀ b, Under c X d H (f b)) :
    Under c X d H (whenSome o f) :=
  fun H' hH' => (obeys_whenSome _ _).mpr ⟨fun b _ => h b H' hH', fun _ => trivial⟩

theorem under_forEach {bs : List β} {f : β → Uow Unit} (h : ∀ b ∈ bs, Under c X d H (f b)) :
    Under c X d H (forEach bs f) := by
  induction bs with
  | nil => exact (aside_ret ()).under
  | cons b bs ih =>
    exact (h b List.mem_cons_self).bind fun _ => ih fun x hx => h x (List.mem_cons_of_mem _ hx)

theorem under_collect {γ : Type} {bs : List β} {f : β → Uow γ}
    (h : ∀ b ∈ bs, Under c X d H (f b)) : Under c X d H (collect bs f) := by
  induction bs with
  | nil => exact (aside_ret _).under
  | cons b bs ih =>
    refine (h b List.mem_cons_self).bind fun _ => Under.bind ?_ fun _ => (aside_ret _).under
    exact ih fun x hx => h x (List.mem_cons_of_mem _ hx)

/-! ## The first rows of a transaction -/

/-- No row with a rank is held. -/
def Clear (c : Uuid) (H : Key → Prop) : Prop := ∀ k, H k → contractRank c k = none

theorem clear_empty : Clear c fun _ => False := fun _ h => h.elim

theorem Clear.low (h : Clear c H) : Low c H := by
  intro k n hk hn
  rw [h k hk] at hn
  cases hn

theorem NoMore.clear (h : NoMore c H H') (hclear : Clear c H) : Clear c H' := by
  intro k hk
  by_contra hne
  exact hne (hclear k (h k (Option.isSome_iff_ne_none.mpr hne) hk))

/-- Where no row with a rank is held, every row may be waited for. -/
theorem Clear.rises (h : Clear c H) (k : Key) : InOrder c H k := by
  refine fun n _ => .inr fun j m hj hm => ?_
  rw [h j hj] at hm
  cases hm

/-- The order of a request is the first row with a rank that is locked. -/
theorem obeys_getOrderLocked (hclear : Clear c H) {id : Uuid} {A : Order → (Key → Prop) → Prop}
    (hA : ∀ o H', Low c H' → H' (.order id) → A o H') :
    Obeys (contractRows c X) d (getOrderLocked id) A H := by
  refine (obeys_bind _ _).mpr ⟨.inr (hclear.rises _), fun r _ => ?_⟩
  exact (obeys_orRaise _ _).mpr fun o _ => hA o _ (hclear.low.order id) (.inr rfl)

/-- The contract is locked while no price item is. -/
theorem obeys_getContractLocked (hlow : Low c H) {id : Uuid} {A : Contract → (Key → Prop) → Prop}
    (hA : ∀ x H', Low c H' → H' (.contract id) → A x H') :
    Obeys (contractRows c X) d (getContractLocked id) A H := by
  refine (obeys_bind _ _).mpr ⟨.inr (hlow.rises_contract id), fun r _ => ?_⟩
  exact (obeys_orRaise _ _).mpr fun x _ => hA x _ (hlow.contract id) (.inr rfl)

/-- The contracts of a client are locked while no price item is. -/
theorem obeys_getActiveForClientLocked (hlow : Low c H) {clientId : Uuid}
    {A : Option (Uuid × Contract) → (Key → Prop) → Prop}
    (hA : ∀ x H', Low c H' → (∀ y, x = some y → H' (.contract y.1)) → (∀ k, H k → H' k) → A x H') :
    Obeys (contractRows c X) d (getActiveForClientLocked clientId) A H := by
  refine (obeys_bind _ _).mpr fun v _ => (obeys_bind _ _).mpr ?_
  refine Obeys.mono (Obeys.and_held (A := fun rows (H' : Key → Prop) =>
    Low c H' ∧ ∀ x ∈ rows, H' (.contract x.1)) ?_) fun rows H' h => ?_
  · refine obeys_collect (S := schema) (fun _ (rows : List (Uuid × Option Contract)) H' =>
      Low c H' ∧ ∀ x ∈ rows, H' (.contract x.1)) ?_ ⟨hlow, fun x hx => absurd hx List.not_mem_nil⟩
    rintro id _ rows H' ⟨hlow', hrows⟩
    refine (obeys_bind _ _).mpr ⟨.inr (hlow'.rises_contract id), fun r _ => ?_⟩
    refine ⟨hlow'.contract id, fun y hy => ?_⟩
    rcases List.mem_append.mp hy with hy | hy
    · exact .inl (hrows y hy)
    · rw [List.mem_singleton.mp hy]
      exact .inr rfl
  have hnone : ∀ y : Uuid × Contract, (none : Option (Uuid × Contract)) = some y →
      H' (.contract y.1) := fun y hy => absurd hy (by simp)
  refine obeys_scalarOneOrNone (hA none H' h.1.1 hnone h.2) fun y hy => hA (some y) H' h.1.1 ?_ h.2
  intro z hz
  rw [← Option.some.inj hz]
  obtain ⟨r, hr, hy⟩ := List.mem_filterMap.mp hy
  obtain ⟨p, -, rfl⟩ := Option.map_eq_some_iff.mp hy
  exact h.1.2 r hr

/-- Whatever is held is below the price items that are still to be locked. -/
def Below (c : Uuid) (todo : List (Uuid × Uuid)) (H : Key → Prop) : Prop :=
  ∀ k n, H k → contractRank c k = some n → ∀ x ∈ todo, n < x.1 + 2

/-- The next price item is above those that are held, and below those that follow. -/
theorem Below.next {x : Uuid × Uuid} {todo : List (Uuid × Uuid)} (h : Below c (x :: todo) H)
    (c' : Uuid) (hsorted : (x :: todo).Pairwise fun a b => a.1 < b.1) :
    InOrder c H (.priceItem c' x.1) ∧ Below c todo (holding H (.priceItem c' x.1)) := by
  have hx : ∀ y ∈ todo, x.1 < y.1 := (List.pairwise_cons.mp hsorted).1
  constructor
  · intro n hn
    rw [contractRank] at hn
    split at hn <;> cases hn
    exact .inr fun k m hk hm => h k m hk hm x List.mem_cons_self
  · rintro k n (hk | rfl) hn y hy
    · exact h k n hk hn y (List.mem_cons_of_mem _ hy)
    · rw [contractRank] at hn
      split at hn <;> cases hn
      exact Nat.add_lt_add_right (hx y hy) 2

/-- The candidates of the locking read ascend strictly. -/
theorem candidates_ascend (ids : List Uuid) (g : Uuid → Option PriceItem) :
    ((ids.dedup.insertionSort (· ≤ ·)).filterMap fun p =>
      (g p).map fun x => (p, x.id)).Pairwise fun a b => a.1 < b.1 := by
  have hnodup : (ids.dedup.insertionSort (· ≤ ·)).Nodup :=
    (List.perm_insertionSort _ _).nodup_iff.mpr (List.nodup_dedup ids)
  have hsorted : (ids.dedup.insertionSort (· ≤ ·)).Pairwise (· ≤ ·) :=
    List.pairwise_insertionSort _ _
  have hlt : (ids.dedup.insertionSort (· ≤ ·)).Pairwise (· < ·) :=
    hsorted.imp₂ (fun a b hle hne => lt_of_le_of_ne hle hne) hnodup
  refine hlt.filterMap _ fun a b hab x hx y hy => ?_
  obtain ⟨_, _, rfl⟩ := Option.map_eq_some_iff.mp hx
  obtain ⟨_, _, rfl⟩ := Option.map_eq_some_iff.mp hy
  exact hab

/-- The price list of a contract is locked in ascending order. -/
theorem obeys_getForProductsLocked (hlow : Low c H) {c' : Uuid} {ids : List Uuid}
    {A : List (Uuid × PriceItem) → (Key → Prop) → Prop}
    (hA : ∀ items H', (∀ x ∈ items, H' (.priceItem c' x.1)) → (∀ k, H k → H' k) → A items H') :
    Obeys (contractRows c X) d (getForProductsLocked c' ids) A H := by
  refine (obeys_bind _ _).mpr fun v _ => (obeys_bind _ _).mpr ?_
  refine Obeys.mono (Obeys.and_held (A := fun rows (H' : Key → Prop) =>
    ∀ x ∈ rows, H' (.priceItem c' x.1)) ?_)
    fun rows H' h => ?_
  · refine (obeys_collect (S := schema) (fun todo (rows : List (Uuid × Option PriceItem)) H' =>
        (todo.Pairwise fun a b => a.1 < b.1) ∧ Below c todo H' ∧
          ∀ x ∈ rows, H' (.priceItem c' x.1)) ?_
        ⟨candidates_ascend ids _, ?_, fun x hx => absurd hx List.not_mem_nil⟩).mono
      fun rows H' h => h.2.2
    · rintro x todo rows H' ⟨hsorted, hbelow, hrows⟩
      obtain ⟨hrises, hbelow'⟩ := hbelow.next c' hsorted
      refine (obeys_bind _ _).mpr ⟨.inr hrises, fun r _ => ?_⟩
      refine ⟨(List.pairwise_cons.mp hsorted).2, hbelow', fun y hy => ?_⟩
      rcases List.mem_append.mp hy with hy | hy
      · exact .inl (hrows y hy)
      · rw [List.mem_singleton.mp hy]
        exact .inr rfl
    · intro k n hk hn x _
      have := hlow k n hk hn
      omega
  · refine hA _ H' (fun x hx => ?_) h.2
    obtain ⟨r, hr, hx⟩ := List.mem_filterMap.mp hx
    obtain ⟨p, -, rfl⟩ := Option.map_eq_some_iff.mp hx
    exact h.1 r hr

/-- Parts on other rows may come before everything else. -/
theorem Aside.obeys_bind {p : Uow α} {f : α → Uow β} (h : Aside c X d p) (hclear : Clear c H)
    {A : β → (Key → Prop) → Prop}
    (hf : ∀ a H', Clear c H' → Obeys (contractRows c X) d (f a) A H') :
    Obeys (contractRows c X) d (p >>= f) A H :=
  (Discipline.obeys_bind _ _).mpr (h.obeys fun a H' hno _ => hf a H' (hno.clear hclear))

/-! ## Quotas -/

/-- Counters are raised under the locks of their price items. -/
theorem under_incrementQuantitiesUsed {c' : Uuid} {items : List (Uuid × Uuid × ℤ)}
    (h : ∀ x ∈ items, H (.priceItem c' x.1)) :
    Under c X d H (incrementQuantitiesUsed c' items) := by
  refine under_forEach fun x hx => (aside_raiseIf _ _).under.bind fun _ => ?_
  refine (under_lock (.inr (h x hx))).bind fun _ => ?_
  exact (under_issue (.inr (h x hx)) rfl).bind fun _ => (aside_raiseIf _ _).under

/-- A reservation raises counters of the price list that was locked. -/
theorem under_checkAndReserveQuantities {c' : Uuid} {items : List (Uuid × ℤ)}
    {priceItemMap : List (Uuid × PriceItem)} (h : ∀ x ∈ priceItemMap, H (.priceItem c' x.1)) :
    Under c X d H (checkAndReserveQuantities c' items priceItemMap) := by
  refine Under.bind (Aside.under (aside_forEach fun x => aside_whenSome fun _ => ?_)) fun _ =>
    under_incrementQuantitiesUsed fun x hx => ?_
  · exact aside_raiseIf _ _
  obtain ⟨y, -, hx⟩ := List.mem_filterMap.mp hx
  obtain ⟨p, hp, rfl⟩ := Option.map_eq_some_iff.mp hx
  obtain ⟨l₁, l₂, hsplit, -⟩ := List.lookup_eq_some_iff.mp hp
  refine h (y.1, p) ?_
  rw [hsplit]
  exact List.mem_append_right _ List.mem_cons_self

/-- A release locks price items in the order of its entries. -/
theorem under_decrementQuantitiesUsed (hX : ∀ c' p, X.exempt (.priceItem c' p)) {c' : Uuid}
    {qs : List (Uuid × ℤ)} : Under c X d H (decrementQuantitiesUsed c' qs) := by
  refine under_forEach fun x _ => (aside_raiseIf _ _).under.bind fun _ => ?_
  refine (under_lock (.inl (hX _ _))).bind fun _ => ?_
  exact (under_issue (.inl (hX _ _)) rfl).bind fun _ => (aside_raiseIf _ _).under

/-- The contract of a new order and its price list are locked in order. -/
theorem obeys_contractTerms (hclear : Clear c H) (env : Env) (clientId : Uuid) (role : Role)
    (paymentMethod : PaymentMethod) (ids : List Uuid) :
    Obeys (contractRows c X) d (contractTerms env clientId role paymentMethod ids)
      (fun terms H' => ∀ t, terms = some t →
        H' (.contract t.1) ∧ ∀ x ∈ t.2, H' (.priceItem t.1 x.1)) H := by
  unfold contractTerms
  split
  · refine (Discipline.obeys_bind _ _).mpr ?_
    refine (aside_raiseIf _ _).obeys_bind hclear fun _ H₁ h₁ => (Discipline.obeys_bind _ _).mpr ?_
    refine obeys_getActiveForClientLocked h₁.low fun x H₂ hlow₂ hlocked₂ _ => ?_
    refine (Discipline.obeys_bind _ _).mpr ((obeys_orRaise _ _).mpr ?_)
    rintro ⟨c', contract⟩ hx
    refine (Discipline.obeys_bind _ _).mpr ((obeys_raiseIf _ _).mpr fun _ => ?_)
    refine (Discipline.obeys_bind _ _).mpr ((obeys_raiseIf _ _).mpr fun _ => ?_)
    refine (Discipline.obeys_bind _ _).mpr (obeys_getForProductsLocked hlow₂ fun items H₃ h₃ hheld₃ => ?_)
    refine (Discipline.obeys_bind _ _).mpr ((obeys_whenSome _ _).mpr ⟨fun _ _ => trivial, fun _ => ?_⟩)
    rintro t ⟨⟩
    exact ⟨hheld₃ _ (hlocked₂ _ hx), h₃⟩
  · exact nofun

/-- The quota of one more line is reserved in order. -/
theorem obeys_linePrice (hlow : Low c H) (o : Order) (joined : Option Contract)
    (product : Product) (p : Uuid) (q : ℤ) :
    Obeys (contractRows c X) d (linePrice o joined product p q) (fun _ _ => True) H := by
  unfold linePrice
  split
  · next c' _ =>
    refine (Discipline.obeys_bind _ _).mpr ⟨.inr (hlow.rises_contract c'), fun r _ => ?_⟩
    refine (Discipline.obeys_bind _ _).mpr ((obeys_orRaise _ _).mpr fun _ _ => ?_)
    refine (Discipline.obeys_bind _ _).mpr ((obeys_raiseIf _ _).mpr fun _ => ?_)
    refine (Discipline.obeys_bind _ _).mpr
      (obeys_getForProductsLocked (hlow.contract c') fun items H₁ h₁ _ => ?_)
    refine (Discipline.obeys_bind _ _).mpr ((obeys_orRaise _ _).mpr fun row hrow => ?_)
    refine (Discipline.obeys_bind _ _).mpr ((obeys_raiseIf _ _).mpr fun _ => ?_)
    have hheld : H₁ (.priceItem c' p) := by
      obtain ⟨l₁, l₂, hsplit, -⟩ := List.lookup_eq_some_iff.mp hrow
      refine h₁ (p, row) ?_
      rw [hsplit]
      exact List.mem_append_right _ List.mem_cons_self
    have hraise : Under c X d H₁ (incrementQuantitiesUsed c' [(p, row.id, q)]) :=
      under_incrementQuantitiesUsed (by simpa using hheld)
    exact (hraise.bind fun _ => (aside_ret row.price).under) H₁ fun _ hk => hk
  · trivial

/-! ## Orders -/

/-- An order is made and its lines and log after it. -/
theorem under_insertOrder {id : Uuid} {o : Order} {items : List OrderItem} {f : Unit → Uow α}
    (ho : Fitting X H (.order id) (.insert o)) (h : Under c X d (holding H (.order id)) (f ())) :
    Under c X d H (insertOrder id o items >>= f) := by
  intro H' hH'
  refine (Discipline.obeys_bind _ _).mpr ((Discipline.obeys_bind _ _).mpr
    ⟨⟨ho.mono hH', .inl rfl⟩, ?_⟩)
  have hrest : Under c X d (holding H (.order id)) (select Db.directory >>= fun d' => do
      raiseIf ((d'.inventory? o.clientInventoryId).isNone)
        (.foreignKeyViolation "orders_client_inventory_id_fkey")
      issue (.order id) (.addItems items)) := by
    refine (aside_ask _).under.bind fun _ => (aside_raiseIf _ _).under.bind fun _ => ?_
    exact under_issue (.inr (.inr rfl)) rfl
  refine (hrest _ fun k hk => hk.imp_left (hH' k)).and_held.mono fun _ H'' h' => ?_
  exact h H'' fun k hk => h'.2 k (hk.imp_left (hH' k))

/-- The adjustment of a delivery changes the held order and releases what was not handed over. -/
theorem under_adjustOrder (hX : ∀ c' p, X.exempt (.priceItem c' p)) (env : Env) {id : Uuid}
    (hid : H (.order id)) (o : Order) (actual : List OrderItemActual) :
    Under c X d H (adjustOrder env id o actual) := by
  refine Under.bind (under_forEach fun x _ => under_whenSome fun _ => ?_) fun _ => ?_
  · refine (aside_raiseIf _ _).under.bind fun _ => (aside_raiseIf _ _).under.bind fun _ => ?_
    exact under_issue (.inr hid) rfl
  · refine (under_whenSome fun _ => under_decrementQuantitiesUsed hX).bind fun _ => ?_
    exact (under_issue (.inr hid) rfl).bind fun _ => (aside_ret _).under

theorem under_handleOrderFulfillment (hX : ∀ c' p, X.exempt (.priceItem c' p)) (env : Env) {id : Uuid}
    (hid : H (.order id)) (o : Order) (actual : List OrderItemActual) :
    Under c X d H (handleOrderFulfillment env id o actual) := by
  refine (aside_orRaise _ _).under.bind fun _ => Under.bind ?_ fun _ => ?_
  · split
    · exact (aside_ret _).under
    · exact under_adjustOrder hX env hid o actual
  · exact (aside_deliverStock _ _ _ _).under.bind fun _ => (aside_settle _ _ _ _ _ _).under

/-- A cancelled order gives its quota back. -/
theorem under_releaseOrderQuantities (hX : ∀ c' p, X.exempt (.priceItem c' p)) (env : Env) {id : Uuid}
    (hid : H (.order id)) (o : Order) : Under c X d H (releaseOrderQuantities env id o) :=
  (under_whenSome fun _ => under_decrementQuantitiesUsed hX).bind fun _ => under_issue (.inr hid) rfl

theorem under_cancelLocked (hX : ∀ c' p, X.exempt (.priceItem c' p)) (env : Env) (reason : String)
    (changedById : Option Uuid) {x : Uuid × Order} (hx : H (.order x.1)) :
    Under c X d H (cancelLocked env reason changedById x) := by
  refine (under_issue (.inr hx) rfl).bind fun _ => Under.bind ?_ fun _ => ?_
  · exact under_whenever (under_releaseOrderQuantities hX env hx x.2)
  · exact (under_issue (.inr hx) rfl).bind fun _ => under_issue (.inr hx) rfl

/-! ## Batches of orders -/

/-- The locks of some orders besides others. -/
abbrev withOrders (H : Key → Prop) (xs : List (Uuid × Order)) : Key → Prop :=
  fun k => H k ∨ ∃ x ∈ xs, k = .order x.1

theorem mem_withOrders {xs : List (Uuid × Order)} {x : Uuid × Order} (h : x ∈ xs) :
    withOrders H xs (.order x.1) := .inr ⟨x, h, rfl⟩

/-- What a batch returns is locked; nobody is waited for. -/
theorem obeys_lockCandidates (isMatch : Order → Bool) (ids : List Uuid) :
    ∀ (n : ℕ) (H : Key → Prop), Obeys (contractRows c X) d (lockCandidates isMatch n ids)
      (fun xs H' => ∀ x ∈ xs, H' (.order x.1)) H := by
  induction ids with
  | nil =>
    rintro (_ | n) H <;> exact fun x hx => absurd hx List.not_mem_nil
  | cons id ids ih =>
    rintro (_ | n) H
    · exact fun x hx => absurd hx List.not_mem_nil
    refine (obeys_bind _ _).mpr ⟨fun r _ => ?_, ih (n + 1) H⟩
    rw [obeys_ret]
    split
    · refine (obeys_bind _ _).mpr ((ih n _).and_held.mono fun xs H' h => ?_)
      intro x hx
      rcases List.mem_cons.mp hx with rfl | hx
      · exact h.2 _ (.inr rfl)
      · exact h.1 x hx
    · exact ih (n + 1) _

/-- A batch of orders is locked and used. -/
theorem under_lockMatching {isMatch : Order → Bool} {limit : Option ℕ}
    {f : List (Uuid × Order) → Uow α} (h : ∀ xs, Under c X d (withOrders H xs) (f xs)) :
    Under c X d H (lockMatching isMatch limit >>= f) := by
  intro H' hH'
  refine (obeys_bind _ _).mpr ((obeys_bind _ _).mpr fun v _ => ?_)
  refine (obeys_lockCandidates _ _ _ _).and_held.mono fun xs H'' h' => h xs H'' ?_
  rintro k (hk | ⟨x, hx, rfl⟩)
  · exact h'.2 k (hH' k hk)
  · exact h'.1 x hx

theorem under_expireStaleOrders (hX : ∀ c' p, X.exempt (.priceItem c' p)) (env : Env)
    (maxAgeHours assignedMaxAgeHours : ℤ) (adminId : Option Uuid) :
    Under c X d H (expireStaleOrders env maxAgeHours assignedMaxAgeHours adminId) := by
  refine under_lockMatching fun xs => Under.bind ?_ fun _ => under_lockMatching fun ys => ?_
  · exact under_forEach fun x hx => under_cancelLocked hX env _ _ (mem_withOrders hx)
  · exact under_forEach fun x hx => under_cancelLocked hX env _ _ (mem_withOrders hx)

theorem under_cancelInflightOrders (hX : ∀ c' p, X.exempt (.priceItem c' p)) (env : Env)
    (contractId : Uuid) (reason : String) :
    Under c X d H (cancelInflightOrders env contractId reason) := by
  refine under_lockMatching fun xs => Under.bind ?_ fun _ => ?_
  · exact under_forEach fun x hx => under_issue (.inr (mem_withOrders hx)) rfl
  have hreserved : ∀ x ∈ xs.filter fun x => x.2.quantitiesReserved,
      withOrders H xs (.order x.1) := fun x hx => mem_withOrders (List.mem_filter.mp hx).1
  refine Under.bind (under_collect fun x hx => ?_) fun items => ?_
  · exact (under_lock (.inr (hreserved x hx))).bind fun _ => (aside_ret _).under
  refine (under_decrementQuantitiesUsed hX).bind fun _ => Under.bind ?_ fun _ => ?_
  · exact under_forEach fun x hx => under_issue (.inr (hreserved x hx)) rfl
  refine under_forEach fun x hx => (under_issue (.inr (mem_withOrders hx)) rfl).bind fun _ => ?_
  exact under_issue (.inr (mem_withOrders hx)) rfl

/-! ## Contracts -/

theorem under_updateContract {id : Uuid} {data : ContractUpdate}
    (h : X.exempt (.contract id) ∨ H (.contract id)) (hstops : X.stops ∨ data.status = .active) :
    Under c X d H (updateContract id data) := by
  have hwrite : Under c X d H (issue (.contract id) (.update data)) := under_write h hstops
  refine (under_lock h).bind fun _ => hwrite.bind fun _ => ?_
  exact (aside_raiseIf _ _).under

end Parts

end Munavvar.ContractLocks
