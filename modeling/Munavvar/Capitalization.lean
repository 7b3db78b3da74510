import Munavvar.StockEffects
import Munavvar.StockConservation
import Munavvar.ShortageCheck
import Munavvar.Isolation

/-!
# The entry of missing containers

A client may enter the containers that a cart needs and the client lacks. The
balances are read without a lock and the missing pieces are entered later. One
call enters no more than what is missing, and a later call finds nothing left to
enter; two calls that read the same balances both enter it.
-/

namespace Munavvar.Capitalization

open Munavvar.KeyedTable
open Munavvar.Transaction
open Munavvar.Transaction.Prog
open Munavvar.ReadCommitted
open Munavvar.Interference (Runs)
open Munavvar.Isolation
open Munavvar.Database
open Munavvar.DoubleEntry
open Munavvar.StockLedger
open Munavvar.StockConservation (quantityInto)
open Munavvar.OrderQueries
open Munavvar.StockService
open Munavvar.ShortageCheck (returnableItem stockOf inventory?_id isPhysical_of_mem
  wp_getInventoryWithBalances)
open Munavvar.Statements (Tame Tame.serial wp_reads)
open Munavvar.OrderEffects (getVendorInventory_quiet)
open Munavvar.Bag (amount)

/-! ## What is missing -/

/-- The containers that a cart needs. -/
def need (s : Db) (items : List Item) (tare : Uuid) : ℤ :=
  (items.map fun i => if returnableItem s i.productId = some tare then i.quantity else 0).sum

/-- `exchange_items`: for each product of a cart the container that goes with it
and the quantity of the first line. -/
def exchangeItems (products : List (Uuid × Product)) (items : List Item) : List (Uuid × ℤ) :=
  products.filterMap fun p => p.2.returnableItemId.bind fun tare =>
    (items.find? fun i => i.productId = p.1).map fun i => (tare, i.quantity)

/-- The products of a cart that are on sale. -/
def cartProducts (s : Db) (items : List Item) : List (Uuid × Product) :=
  s.products.rows.filter fun r => r.1 ∈ items.map Item.productId && r.2.isActive

/-- The containers a cart is exchanged for. -/
def exchanged (s : Db) (items : List Item) : List (Uuid × ℤ) := exchangeItems (cartProducts s items) items

theorem exchangeItems_pos (products : List (Uuid × Product)) (items : List Item) :
    ∀ x ∈ exchangeItems products items, 0 < x.2 := by
  intro x hx
  obtain ⟨p, -, hp⟩ := List.mem_filterMap.mp hx
  obtain ⟨tare, -, hp⟩ := Option.bind_eq_some_iff.mp hp
  obtain ⟨i, -, rfl⟩ := Option.map_eq_some_iff.mp hp
  exact i.quantity_pos

theorem itemsToCapitalize_pos (b : Uuid → ℤ) (exchange : List (Uuid × ℤ)) :
    ∀ x ∈ itemsToCapitalize b exchange, 0 < x.2 := by
  intro x hx
  exact of_decide_eq_true (List.mem_filter.mp hx).2

@[simp] theorem amount_itemsToCapitalize_nil (b : Uuid → ℤ) (tare : Uuid) :
    amount (itemsToCapitalize b []) tare = 0 := rfl

/-- One product after the other is compared with the balance. -/
theorem amount_itemsToCapitalize_cons (b : Uuid → ℤ) (x : Uuid × ℤ) (exchange : List (Uuid × ℤ))
    (tare : Uuid) :
    amount (itemsToCapitalize b (x :: exchange)) tare =
      (if x.1 = tare then max 0 (x.2 - b x.1) else 0) + amount (itemsToCapitalize b exchange) tare := by
  by_cases hshort : 0 < x.2 - b x.1
  · have hcons : itemsToCapitalize b (x :: exchange) =
        (x.1, x.2 - b x.1) :: itemsToCapitalize b exchange := by
      rw [itemsToCapitalize, List.map_cons, List.filter_cons_of_pos (by simpa using hshort)]
      rfl
    rw [hcons, Bag.amount_cons, max_eq_right (by omega)]
  · have hcons : itemsToCapitalize b (x :: exchange) = itemsToCapitalize b exchange := by
      rw [itemsToCapitalize, List.map_cons, List.filter_cons_of_neg (by simpa using hshort)]
      rfl
    rw [hcons, max_eq_left (by omega), ite_self, zero_add]

/-- What is missing line by line is at most what is missing of all lines together. -/
theorem amount_itemsToCapitalize_le {b : Uuid → ℤ} {tare : Uuid} (hb : 0 ≤ b tare)
    {exchange : List (Uuid × ℤ)} (hpos : ∀ x ∈ exchange, 0 < x.2) :
    amount (itemsToCapitalize b exchange) tare ≤ max 0 (amount exchange tare - b tare) := by
  induction exchange with
  | nil => simp
  | cons x exchange ih =>
    obtain ⟨hx, hrest⟩ := List.forall_mem_cons.mp hpos
    have ih := ih hrest
    have hnonneg := Bag.amount_nonneg (fun y hy => le_of_lt (hrest y hy)) tare
    rw [amount_itemsToCapitalize_cons, Bag.amount_cons]
    split
    · next htare =>
      rw [htare]
      omega
    · omega

/-- After the entry every product of the cart finds its containers. -/
theorem le_add_itemsToCapitalize {b : Uuid → ℤ} {exchange : List (Uuid × ℤ)} {x : Uuid × ℤ}
    (hx : x ∈ exchange) : x.2 ≤ b x.1 + amount (itemsToCapitalize b exchange) x.1 := by
  induction exchange with
  | nil => cases hx
  | cons y exchange ih =>
    rw [amount_itemsToCapitalize_cons]
    have hnonneg := Bag.amount_nonneg
      (fun z hz => le_of_lt (itemsToCapitalize_pos b exchange z hz)) x.1
    rcases List.mem_cons.mp hx with rfl | hx
    · rw [if_pos rfl]
      omega
    · have ih := ih hx
      split <;> omega

/-- Where every product finds its containers nothing is entered. -/
theorem amount_itemsToCapitalize_eq_zero {b : Uuid → ℤ} {exchange : List (Uuid × ℤ)} {tare : Uuid}
    (h : ∀ x ∈ exchange, x.1 = tare → x.2 ≤ b tare) :
    amount (itemsToCapitalize b exchange) tare = 0 := by
  induction exchange with
  | nil => rfl
  | cons x exchange ih =>
    obtain ⟨hx, hrest⟩ := List.forall_mem_cons.mp h
    rw [amount_itemsToCapitalize_cons, ih hrest, add_zero]
    split
    · next htare =>
      have hle := hx htare
      rw [htare]
      omega
    · rfl

/-- The call looks at the first line of each product only, so it sees at most what the cart needs. -/
theorem amount_exchanged_le (s : Db) (items : List Item) (tare : Uuid) :
    amount (exchanged s items) tare ≤ need s items tare := by
  -- the products are distinct rows of the catalog; the induction is on the lines
  have hlines : ∀ (items : List Item) (products : List (Uuid × Product)),
      (products.map Prod.fst).Nodup → (∀ p ∈ products, s.products.find? p.1 = some p.2) →
      amount (exchangeItems products items) tare ≤ need s items tare := by
    intro items
    induction items with
    | nil =>
      intro products _ _
      have hnone : exchangeItems products [] = [] := by simp [exchangeItems]
      rw [hnone]
      exact le_refl 0
    | cons i items ih =>
      intro products hnodup hrows
      have hsplit : amount (exchangeItems products (i :: items)) tare ≤
          (if returnableItem s i.productId = some tare then i.quantity else 0) +
            amount (exchangeItems products items) tare := by
        clear ih
        induction products with
        | nil =>
          have hquantity := i.quantity_pos
          simp only [exchangeItems, List.filterMap_nil, Bag.amount_nil, add_zero]
          split <;> omega
        | cons p products ih =>
          rw [List.map_cons, List.nodup_cons] at hnodup
          obtain ⟨hp, hrest⟩ := List.forall_mem_cons.mp hrows
          have ih := ih hnodup.2 hrest
          have hcons : ∀ items : List Item, amount (exchangeItems (p :: products) items) tare =
              (if p.2.returnableItemId = some tare then
                ((items.find? fun i => i.productId = p.1).map Item.quantity).getD 0 else 0) +
              amount (exchangeItems products items) tare := by
            intro items
            unfold exchangeItems
            rw [List.filterMap_cons]
            cases htare : p.2.returnableItemId with
            | none => simp
            | some t =>
              cases hfind : items.find? fun i => i.productId = p.1 with
              | none => simp
              | some j =>
                by_cases ht : t = tare <;> simp [ht]
          have hquantity := i.quantity_pos
          rw [hcons, hcons]
          by_cases hid : i.productId = p.1
          · -- the other products do not ask for this line
            have hothers : exchangeItems products (i :: items) = exchangeItems products items := by
              refine List.filterMap_congr fun q hq => ?_
              have hne : i.productId ≠ q.1 := fun hq' =>
                hnodup.1 (hid ▸ hq' ▸ List.mem_map.mpr ⟨q, hq, rfl⟩)
              simp [hne]
            have hreturnable : returnableItem s i.productId = p.2.returnableItemId := by
              rw [returnableItem, hid, hp, Option.bind_some]
            have hfirst : 0 ≤ ((items.find? fun i => i.productId = p.1).map Item.quantity).getD 0 := by
              cases items.find? fun i => i.productId = p.1 with
              | none => exact le_refl 0
              | some j => exact le_of_lt j.quantity_pos
            rw [hothers, hreturnable, List.find?_cons_of_pos (by simp [hid]), Option.map_some,
              Option.getD_some]
            split <;> omega
          · rw [List.find?_cons_of_neg (by simp [hid])]
            omega
      have ih := ih products hnodup hrows
      rw [need, List.map_cons, List.sum_cons, ← need]
      omega
  refine hlines items _ ?_ fun p hp => ?_
  · exact (List.filter_sublist.map Prod.fst).nodup s.products.nodup
  · exact (Table.mem_rows_iff _ p.1 p.2).mp (List.mem_filter.mp hp).1

/-! ## What a call enters -/

/-- Containers have come into an inventory. -/
structure Entered (inventoryId : Uuid) (items : List (Uuid × ℤ)) (s s' : Db) : Prop where
  /-- The balances have grown. -/
  stock_eq : ∀ p, stockOf s' inventoryId p = stockOf s inventoryId p + amount items p
  /-- The ledger shows it. -/
  into_eq : ∀ p, quantityInto s' inventoryId p = quantityInto s inventoryId p + amount items p
  /-- The catalog stays. -/
  products_eq : s'.products = s.products
  /-- So do the inventories. -/
  directory_eq : s'.directory = s.directory

theorem Entered.append {inventoryId : Uuid} {items items' : List (Uuid × ℤ)} {s s' s'' : Db}
    (h : Entered inventoryId items s s') (h' : Entered inventoryId items' s' s'') :
    Entered inventoryId (items ++ items') s s'' where
  stock_eq p := by rw [h'.stock_eq, h.stock_eq, Bag.amount_append, add_assoc]
  into_eq p := by rw [h'.into_eq, h.into_eq, Bag.amount_append, add_assoc]
  products_eq := h'.products_eq.trans h.products_eq
  directory_eq := h'.directory_eq.trans h.directory_eq

section Programs

variable {R : Regime schema} {s : Db}

/-- A movement enters its quantity. -/
theorem wp_movement (hsound : R.Sound) (hlax : R.Lax) (id : Uuid) (row : StockTransaction) :
    wp R (insertStockTransactions [(id, row)])
      (fun _ s' => Entered row.toId [(row.productId, row.quantity)] s s') (fun _ => True) s := by
  rw [insertStockTransactions, wp_bind, forEach, wp_bind']
  refine wp_execute_of (hlax _ _ _) (fun _ r hr => ?_) fun _ _ => trivial
  change (StockTransactionStmt.insert row).exec (s.stockTransactions.find? id) = .ok r at hr
  cases hold : s.stockTransactions.find? id with
  | some old =>
    rw [hold] at hr
    cases hr
  | none =>
    rw [hold] at hr
    obtain ⟨rfl, hchecks⟩ := checked_ok hr
    simp only [List.forall_mem_cons, decide_eq_true_eq] at hchecks
    have hroute : row.fromId ≠ row.toId := hchecks.2.2.1
    rw [forEach, wp_ret, forEach, wp_bind', wp_bind, checkRoute]
    simp only [wp_bind, wp_ask, wp_raiseIf, implies_true, true_and]
    intro _ _ _ _ _ _ _
    refine updateInventoryBalances_spec hsound hlax row (.inr trivial)
      (fun _ _ _ _ _ => trivial) fun b' hposted => ?_
    constructor
    · intro p
      have hbalance := hposted.balance_eq (row.toId, p)
      rw [effect_entry] at hbalance
      change balance b' (row.toId, p) = _
      rw [hbalance, Bag.amount_cons, Bag.amount_nil, add_zero]
      by_cases hp : row.productId = p
      · rw [if_pos ⟨rfl, hp⟩, if_neg (fun h => hroute h.1), if_pos hp, sub_zero]
        rfl
      · rw [if_neg (fun h => hp h.2), if_neg (fun h => hp h.2), if_neg hp, sub_zero]
        rfl
    · intro p
      change (s.stockTransactions.put id (some row)).total _ = s.stockTransactions.total _ + _
      rw [Table.total_put, hold, Option.elim_none, sub_zero, Option.elim_some, Bag.amount_cons,
        Bag.amount_nil, add_zero]
      simp only [true_and]
    · rfl
    · rfl

/-- A line of the document enters its quantity. -/
theorem wp_addMovement (hsound : R.Sound) (hlax : R.Lax) (env : Env) (n : ℕ) (fromId toId : Uuid)
    (x : (Uuid × ℤ) × ℕ) :
    wp R (addMovement env n fromId toId x) (fun _ s' => Entered toId [x.1] s s')
      (fun _ => True) s := by
  rw [addMovement, wp_bind]
  refine wp_execute_of (hlax _ _ _) (fun _ r _ => ?_) fun _ _ => trivial
  rw [wp_bind, wp_ask]
  intro _ _
  rw [wp_bind, wp_raiseIf]
  refine ⟨fun _ => trivial, fun _ => ?_⟩
  refine wp_mono _ (wp_movement hsound hlax _ _) (fun _ s' h => ?_) fun _ he => he
  exact ⟨h.stock_eq, h.into_eq, h.products_eq, h.directory_eq⟩

/-- The document enters all of its lines. -/
theorem wp_enterInitialBalance (ht : Tame R fun _ => True) (hlax : R.Lax) (env : Env) (n : ℕ) (toId : Uuid)
    (items : List (Uuid × ℤ)) (createdById : Uuid) :
    wp R (enterInitialBalance env n toId items createdById) (fun _ s' => Entered toId items s s')
      (fun _ => True) s := by
  have hbody : ∀ (vendor : Inventory) (v : Db), wp R (do
      issue (.stockTransfer (env.uuid n 0))
        (.insert ⟨vendor.id, toId, .initialBalance, .completed, createdById, some createdById,
          none, none, []⟩)
      raiseIf ((v.directory.inventory? vendor.id).isNone)
        (.foreignKeyViolation "stock_transfers_from_id_fkey")
      raiseIf ((v.directory.inventory? toId).isNone)
        (.foreignKeyViolation "stock_transfers_to_id_fkey")
      forEach items.zipIdx (addMovement env n vendor.id toId))
      (fun _ s' => Entered toId items s s') (fun _ => True) s := by
    intro vendor v
    rw [wp_bind]
    refine wp_execute_of (hlax _ _ _) (fun _ r _ => ?_) fun _ _ => trivial
    rw [wp_bind, wp_raiseIf]
    refine ⟨fun _ => trivial, fun _ => ?_⟩
    rw [wp_bind, wp_raiseIf]
    refine ⟨fun _ => trivial, fun _ => ?_⟩
    refine wp_loop (fun done => Entered toId (done.map Prod.fst) s) ?_ ?_ ?_
    · exact ⟨fun _ => (add_zero _).symm, fun _ => (add_zero _).symm, rfl, rfl⟩
    · intro done x todo s₁ _ h
      refine wp_mono _ (wp_addMovement ht.sound hlax env n vendor.id toId x) (fun _ s₂ h' => ?_)
        fun _ he => he
      rw [List.map_append, List.map_singleton]
      exact h.append h'
    · intro s' h
      rwa [List.zipIdx_map_fst] at h
  rw [enterInitialBalance, wp_bind]
  refine wp_reads ht getVendorInventory_quiet fun vendor => ?_
  rw [wp_bind, wp_ask]
  exact fun v _ => hbody vendor v

/-- `capitalize_deficit` on its own: nothing, or what each product of the cart lacks. -/
theorem wp_capitalizeDeficit (env : Env) (dto : CapitalizeDeficitRequest) (clientId : Uuid) :
    wp Regime.serial (capitalizeDeficit env dto clientId)
      (fun _ s' => s' = s ∨ s.directory.isPhysical dto.clientInventoryId = true ∧
        Entered dto.clientInventoryId (itemsToCapitalize (stockOf s dto.clientInventoryId)
          (exchanged s dto.items)) s s') (fun _ => True) s := by
  have hexact : Regime.Exact (S := schema) Regime.serial := Regime.serialAsserting_exact _
  rw [capitalizeDeficit, getByIds, wp_bind]
  refine wp_ask_exact hexact ?_
  dsimp only
  rw [wp_whenever]
  refine ⟨fun _ => ?_, fun _ => .inl rfl⟩
  rw [wp_bind]
  refine wp_getInventoryWithBalances hexact _ _ ?_
  rw [wp_bind, wp_orRaise]
  refine ⟨fun _ => trivial, fun found hfound => ?_⟩
  obtain ⟨i, hi, rfl⟩ := Option.map_eq_some_iff.mp hfound
  obtain ⟨hi, hclient⟩ := Option.filter_eq_some_iff.mp hi
  simp only [Option.all_some, Bool.and_eq_true, decide_eq_true_eq] at hclient
  have hid := inventory?_id hi
  have hphysical : s.directory.isPhysical dto.clientInventoryId = true := by
    rw [← hid]
    refine isPhysical_of_mem (List.mem_of_find?_eq_some hi) ?_ ?_ <;> simp [hclient.2]
  dsimp only
  rw [wp_bind, wp_raiseIf]
  refine ⟨fun _ => trivial, fun _ => ?_⟩
  rw [wp_whenever]
  refine ⟨fun _ => ?_, fun _ => .inl rfl⟩
  rw [hid]
  refine wp_mono _ (wp_enterInitialBalance Tame.serial Regime.serial_lax env 0 _ _ clientId)
    (fun _ s' h => .inr ⟨hphysical, h⟩) fun _ he => he

end Programs

/-! ## All calls together -/

/-- The calls with one cart: what each brings along and the client it is made for. -/
def calls (dto : CapitalizeDeficitRequest) (call : Env × Uuid) : Uow Unit :=
  capitalizeDeficit call.1 dto call.2

/-- All calls together have entered at most what was missing before the first. -/
def CapitalizedOnce (dto : CapitalizeDeficitRequest) (db s : Db) : Prop :=
  ∀ tare, quantityInto s dto.clientInventoryId tare - quantityInto db dto.clientInventoryId tare ≤
    max 0 (need db dto.items tare - stockOf db dto.clientInventoryId tare)

/-- What calls that do not disturb one another keep. -/
structure Filled (dto : CapitalizeDeficitRequest) (db s : Db) : Prop where
  /-- The catalog stays. -/
  products_eq : s.products = db.products
  /-- So do the inventories. -/
  directory_eq : s.directory = db.directory
  /-- The balances have grown by what was entered. -/
  into_eq : ∀ tare, quantityInto s dto.clientInventoryId tare -
    quantityInto db dto.clientInventoryId tare =
      stockOf s dto.clientInventoryId tare - stockOf db dto.clientInventoryId tare
  /-- Nothing was entered, or every product of the cart finds its containers. -/
  filled : stockOf s dto.clientInventoryId = stockOf db dto.clientInventoryId ∨
    ∀ x ∈ exchanged db dto.items, x.2 ≤ stockOf s dto.clientInventoryId x.1
  /-- What was entered was missing. -/
  bound : CapitalizedOnce dto db s

theorem Filled.refl (dto : CapitalizeDeficitRequest) (db : Db) : Filled dto db db where
  products_eq := rfl
  directory_eq := rfl
  into_eq _ := by rw [sub_self, sub_self]
  filled := .inl rfl
  bound _ := by
    rw [sub_self]
    exact le_max_left _ _

/-- One more call keeps it. -/
theorem Filled.entered {dto : CapitalizeDeficitRequest} {db s s' : Db} (h : Filled dto db s)
    (hphysical : ∀ i p, db.directory.isPhysical i = true → 0 ≤ stockOf db i p)
    (hclient : s.directory.isPhysical dto.clientInventoryId = true)
    (h' : Entered dto.clientInventoryId (itemsToCapitalize (stockOf s dto.clientInventoryId)
      (exchanged s dto.items)) s s') : Filled dto db s' := by
  have hexchanged : exchanged s dto.items = exchanged db dto.items := by
    rw [exchanged, exchanged, cartProducts, cartProducts, h.products_eq]
  rw [hexchanged] at h'
  have hinto : ∀ tare, quantityInto s' dto.clientInventoryId tare -
      quantityInto db dto.clientInventoryId tare =
      stockOf s' dto.clientInventoryId tare - stockOf db dto.clientInventoryId tare := by
    intro tare
    have hbefore := h.into_eq tare
    rw [h'.into_eq, h'.stock_eq]
    omega
  have hproducts := h'.products_eq.trans h.products_eq
  have hdirectory := h'.directory_eq.trans h.directory_eq
  rcases h.filled with hsame | henough
  · -- the first entry: what is missing is compared with the balances at the start
    rw [hsame] at h'
    refine ⟨hproducts, hdirectory, hinto, .inr fun x hx => ?_, fun tare => ?_⟩
    · rw [h'.stock_eq, hsame]
      exact le_add_itemsToCapitalize hx
    · have hnonneg := hphysical dto.clientInventoryId tare (h.directory_eq ▸ hclient)
      have hmissing := amount_itemsToCapitalize_le hnonneg
        (exchangeItems_pos (cartProducts db dto.items) dto.items)
      have hneed := amount_exchanged_le db dto.items tare
      rw [hinto, h'.stock_eq, hsame]
      rw [exchanged] at hneed ⊢
      omega
  · -- a later entry is empty
    have hzero : ∀ tare, amount (itemsToCapitalize (stockOf s dto.clientInventoryId)
        (exchanged db dto.items)) tare = 0 := fun tare =>
      amount_itemsToCapitalize_eq_zero fun x hx htare => htare ▸ henough x hx
    have hstock : ∀ tare, stockOf s' dto.clientInventoryId tare =
        stockOf s dto.clientInventoryId tare := fun tare => by
      rw [h'.stock_eq, hzero, add_zero]
    refine ⟨hproducts, hdirectory, hinto, .inr fun x hx => ?_, fun tare => ?_⟩
    · rw [hstock]
      exact henough x hx
    · have hbound := h.bound tare
      rwa [h'.into_eq, hzero, add_zero]

/-- In every run in which no call commits past another that is underway, all
calls together enter at most what was missing. -/
theorem deficit_capitalized_once (dto : CapitalizeDeficitRequest) {db : Db}
    {σ : Sys schema (Env × Uuid)}
    (hphysical : ∀ i p, db.directory.isPhysical i = true → 0 ≤ stockOf db i p)
    (h : Runs (calls dto) (Undisturbed (calls dto)) (Sys.init db) σ) :
    CapitalizedOnce dto db σ.db := by
  have hstep : ∀ call s, Filled dto db s → Filled dto db (serve (calls dto call) s) := by
    intro call s hs
    have hcall := wp_capitalizeDeficit (s := s) call.1 dto call.2
    refine serve_of_wp (wp_mono _ hcall (fun _ s' hs' => ?_) fun _ he => he) hs
    rcases hs' with rfl | ⟨hclient, hentered⟩
    · exact hs
    · exact hs.entered hphysical hclient hentered
  exact (undisturbed_invariant hstep (Filled.refl dto db) h).bound

/-- Three bottles of water. -/
def sampleCart : CapitalizeDeficitRequest := ⟨[⟨21, 3, Operations.three_pieces⟩], 5, by decide⟩

/-- The `n`-th call for the client. -/
def sampleCall (n : ℕ) : Env × Uuid := ((Operations.sampleRequest n 0 .runExpireJob).env, 7)

/-- One call after the other. -/
def callTwice : List (ReadCommitted.Action (Env × Uuid)) :=
  [.start 0 (sampleCall 0)] ++ List.replicate 16 (.step 0) ++ [.commit 0] ++
  [.start 1 (sampleCall 1)] ++ List.replicate 3 (.step 1) ++ [.commit 1]

/-- Both calls read the balances before either enters anything. -/
def callTogether : List (ReadCommitted.Action (Env × Uuid)) :=
  [.start 0 (sampleCall 0), .start 1 (sampleCall 1)] ++ List.replicate 3 (.step 0) ++
  List.replicate 3 (.step 1) ++ List.replicate 13 (.step 0) ++ [.commit 0] ++
  List.replicate 13 (.step 1) ++ [.commit 1]

theorem sample_physical (i p : Uuid) (h : Operations.sampleDb.directory.isPhysical i = true) :
    0 ≤ stockOf Operations.sampleDb i p := by
  have hrows : ∀ r ∈ Operations.sampleDb.balances.rows,
      Operations.sampleDb.directory.isPhysical r.1.1 = true → 0 ≤ r.2 := by decide
  rw [stockOf, balance]
  cases hfind : Operations.sampleDb.balances.find? (i, p) with
  | none => exact le_refl 0
  | some q => exact hrows ((i, p), q) ((Table.mem_rows_iff _ _ _).mpr hfind) h

theorem deficit_capitalized_once_sample :
    ∃ σ, callTwice.foldlM (execAlone (calls sampleCart) [0, 1]) (Sys.init Operations.sampleDb) =
        some σ ∧ stockOf σ.db 5 22 = 3 ∧ CapitalizedOnce sampleCart Operations.sampleDb σ.db := by
  have heval : (callTwice.foldlM (execAlone (calls sampleCart) [0, 1])
      (Sys.init Operations.sampleDb)).map (fun σ => stockOf σ.db 5 22) = some 3 := by decide +kernel
  obtain ⟨σ, hrun, hstock⟩ := Option.map_eq_some_iff.mp heval
  exact ⟨σ, hrun, hstock,
    deficit_capitalized_once sampleCart sample_physical (runs_of_alone callTwice hrun)⟩

theorem deficit_capitalized_twice :
    ¬ ∀ (dto : CapitalizeDeficitRequest) (db : Db) (σ : Sys schema (Env × Uuid)),
      (∀ i p, db.directory.isPhysical i = true → 0 ≤ stockOf db i p) →
      Reach (calls dto) (fun _ _ _ => True) (Sys.init db) σ → CapitalizedOnce dto db σ.db := by
  intro hclaim
  have heval : (callTogether.foldlM (Sys.exec (calls sampleCart))
      (Sys.init Operations.sampleDb)).map (fun σ => quantityInto σ.db 5 22) = some 6 := by
    decide +kernel
  obtain ⟨σ, hrun, hinto⟩ := Option.map_eq_some_iff.mp heval
  have hbound := hclaim sampleCart _ σ sample_physical (Reach.of_actions _ hrun) 22
  have hneed : need Operations.sampleDb sampleCart.items 22 = 3 := by decide
  have hstock : stockOf Operations.sampleDb 5 22 = 0 := by decide
  have hnothing : quantityInto Operations.sampleDb 5 22 = 0 := by decide
  change quantityInto σ.db 5 22 - quantityInto Operations.sampleDb 5 22 ≤
    max 0 (need Operations.sampleDb sampleCart.items 22 - stockOf Operations.sampleDb 5 22) at hbound
  rw [hinto, hneed, hstock, hnothing] at hbound
  exact absurd hbound (by decide)

end Munavvar.Capitalization
