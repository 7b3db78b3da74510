import Munavvar.Statements
import Munavvar.Bag
import Mathlib.Data.List.Dedup
import Mathlib.Data.List.Sort

/-!
# Contract quotas

The repository of price items: the locking read of a contract's price list and
the two loops that raise and lower the counter of used pieces. Each loop is
described by the quantities it moves, whatever their order.
-/

namespace Munavvar.Quota

open Munavvar.KeyedTable
open Munavvar.Transaction
open Munavvar.Transaction.Prog
open Munavvar.Database
open Munavvar.Statements
open Munavvar.Bag (amount)

/-! ## The repository -/

/-- `get_for_products_locked`: the active price items of some products, locked
in the order of the products and read again under their locks. -/
def getForProductsLocked (contractId : Uuid) (productIds : List Uuid) :
    Uow (List (Uuid × PriceItem)) := do
  let candidates ← select fun s =>
    (productIds.dedup.insertionSort (· ≤ ·)).filterMap fun productId =>
      ((s.priceItems.find? (contractId, productId)).filter PriceItem.isActive).map fun p =>
        (productId, p.id)
  let rows ← collect candidates fun c => do
    let row ← forUpdate (.priceItem contractId c.1)
    ret (c.1, row.filter fun p => p.id = c.2 && p.isActive)
  ret (rows.filterMap fun r => r.2.map (Prod.mk r.1))

/-- `increment_quantities_used`: the rows are named by their identifiers; the
product is where the row is stored. -/
def incrementQuantitiesUsed (contractId : Uuid) (items : List (Uuid × Uuid × ℤ)) : Uow Unit :=
  forEach items fun (productId, itemId, delta) => do
    raiseIf (delta ≤ 0) (.incrementNotPositive itemId delta)
    let row ← forUpdate (.priceItem contractId productId)
    issue (.priceItem contractId productId) (.increment itemId delta)
    raiseIf (¬ row.any fun p => p.id = itemId) (.incrementNoRows itemId)

/-- `decrement_quantities_used`: one `UPDATE` of the active row for each entry,
never below zero. -/
def decrementQuantitiesUsed (contractId : Uuid) (productQuantities : List (Uuid × ℤ)) :
    Uow Unit :=
  forEach productQuantities fun (productId, delta) => do
    raiseIf (delta ≤ 0) (.decrementNotPositive productId delta)
    let row ← forUpdate (.priceItem contractId productId)
    issue (.priceItem contractId productId) (.decrement delta)
    raiseIf (¬ row.any PriceItem.isActive) (.decrementNoRows contractId productId)

/-- `_check_and_reserve_quantities`: every line is checked against its locked
price item before the first counter is raised. -/
def checkAndReserveQuantities (contractId : Uuid) (items : List (Uuid × ℤ))
    (priceItemMap : List (Uuid × PriceItem)) : Uow Unit := do
  forEach items fun (productId, quantity) =>
    whenSome (priceItemMap.lookup productId) fun p =>
      raiseIf (p.quantity ≠ 0 ∧ p.quantity - p.quantityUsed < quantity)
        (.quantityLimitExceeded contractId productId p.quantity p.quantityUsed quantity)
  incrementQuantitiesUsed contractId <| items.filterMap fun (productId, quantity) =>
    (priceItemMap.lookup productId).map fun p => (productId, p.id, quantity)

/-! ## Moved quantities -/

/-- What the quantities of a contract's products mean for one price item. -/
def demand (contractId : Uuid) (qs : List (Uuid × ℤ)) (k : Uuid × Uuid) : ℤ :=
  if k.1 = contractId then amount qs k.2 else 0

@[simp] theorem demand_nil (c : Uuid) (k : Uuid × Uuid) : demand c [] k = 0 := ite_self 0

@[simp] theorem demand_append (c : Uuid) (qs qs' : List (Uuid × ℤ)) (k : Uuid × Uuid) :
    demand c (qs ++ qs') k = demand c qs k + demand c qs' k := by
  unfold demand
  split
  · exact Bag.amount_append qs qs' k.2
  · rfl

theorem demand_singleton (c p : Uuid) (q : ℤ) (k : Uuid × Uuid) :
    demand c [(p, q)] k = if k = (c, p) then q else 0 := by
  obtain ⟨c', p'⟩ := k
  simp only [demand, Bag.amount_cons, Bag.amount_nil, add_zero, Prod.mk.injEq]
  by_cases hc : c' = c <;> by_cases hp : p = p' <;> simp [hc, hp, eq_comm]

theorem demand_nonneg {c : Uuid} {qs : List (Uuid × ℤ)} (h : ∀ x ∈ qs, 0 < x.2)
    (k : Uuid × Uuid) : 0 ≤ demand c qs k := by
  unfold demand
  split
  · exact Bag.amount_nonneg (fun x hx => le_of_lt (h x hx)) k.2
  · exact le_refl 0

theorem demand_flatten (c : Uuid) (qss : List (List (Uuid × ℤ))) (k : Uuid × Uuid) :
    demand c qss.flatten k = (qss.map fun qs => demand c qs k).sum := by
  induction qss with
  | nil => exact demand_nil c k
  | cons qs qss ih => rw [List.flatten_cons, demand_append, ih, List.map_cons, List.sum_cons]

/-- Adding up the entries of a product keeps its demand. -/
theorem demand_collect (c : Uuid) (qs : List (Uuid × ℤ)) (k : Uuid × Uuid) :
    demand c (Bag.collect qs) k = demand c qs k := by
  rw [demand, Bag.amount_collect, demand]

/-- A product's own entry is part of its demand. -/
theorem le_demand {c : Uuid} {qs : List (Uuid × ℤ)} (h : ∀ x ∈ qs, 0 < x.2) {x : Uuid × ℤ}
    (hx : x ∈ qs) : x.2 ≤ demand c qs (c, x.1) := by
  rw [demand, if_pos rfl]
  exact Bag.le_amount (fun y hy => le_of_lt (h y hy)) hx

/-- The counters after a reservation. -/
structure Reserved (contractId : Uuid) (qs : List (Uuid × ℤ))
    (t t' : Table (Uuid × Uuid) PriceItem) : Prop where
  /-- Each counter is raised by the demand. -/
  find_eq : ∀ k, t'.find? k = (t.find? k).map fun p =>
    { p with quantityUsed := p.quantityUsed + demand contractId qs k }
  /-- Only positive quantities are reserved. -/
  pos : ∀ x ∈ qs, 0 < x.2
  /-- Every product has its price item. -/
  stored : ∀ x ∈ qs, (t.find? (contractId, x.1)).isSome = true

theorem reserved_nil (c : Uuid) (t : Table (Uuid × Uuid) PriceItem) : Reserved c [] t t where
  find_eq k := by simp
  pos x hx := absurd hx List.not_mem_nil
  stored x hx := absurd hx List.not_mem_nil

/-- One raised counter. -/
theorem reserved_put {c p : Uuid} {t : Table (Uuid × Uuid) PriceItem} {row : PriceItem} {q : ℤ}
    (hrow : t.find? (c, p) = some row) (hq : 0 < q) :
    Reserved c [(p, q)] t
      (t.put (c, p) (some { row with quantityUsed := row.quantityUsed + q })) where
  find_eq k := by
    rw [Table.find?_put, demand_singleton]
    split
    · next hk => rw [hk, hrow, Option.map_some]
    · simp
  pos := by simpa using hq
  stored := by simpa using hrow ▸ Option.isSome_some

theorem Reserved.trans {c : Uuid} {qs qs' : List (Uuid × ℤ)}
    {t t' t'' : Table (Uuid × Uuid) PriceItem} (h : Reserved c qs t t')
    (h' : Reserved c qs' t' t'') : Reserved c (qs ++ qs') t t'' where
  find_eq k := by
    rw [h'.find_eq, h.find_eq, Option.map_map]
    congr 1
    funext p
    dsimp only [Function.comp]
    rw [demand_append, add_assoc]
  pos := by
    rw [List.forall_mem_append]
    exact ⟨h.pos, h'.pos⟩
  stored := by
    rw [List.forall_mem_append]
    refine ⟨h.stored, fun x hx => ?_⟩
    have := h'.stored x hx
    rwa [h.find_eq, Option.isSome_map] at this

/-- The counter after its release. -/
def released (used quantity : ℤ) : ℤ := if quantity = 0 then used else max (used - quantity) 0

theorem released_zero (used : ℤ) : released used 0 = used := if_pos rfl

/-- Releases add up, also where they stop at zero. -/
theorem released_released (used : ℤ) {q q' : ℤ} (hq : 0 ≤ q) (hq' : 0 ≤ q') :
    released (released used q) q' = released used (q + q') := by
  unfold released
  split_ifs <;> omega

/-- A counter that covers the quantity is lowered by it. -/
theorem released_of_le {used q : ℤ} (h : q ≤ used) : released used q = used - q := by
  unfold released
  split_ifs <;> omega

/-- The counters after a release. -/
structure Released (contractId : Uuid) (qs : List (Uuid × ℤ))
    (t t' : Table (Uuid × Uuid) PriceItem) : Prop where
  /-- Each counter is lowered by the demand. -/
  find_eq : ∀ k, t'.find? k = (t.find? k).map fun p =>
    { p with quantityUsed := released p.quantityUsed (demand contractId qs k) }
  /-- Only positive quantities are released. -/
  pos : ∀ x ∈ qs, 0 < x.2

theorem released_nil (c : Uuid) (t : Table (Uuid × Uuid) PriceItem) : Released c [] t t where
  find_eq k := by simp [released_zero]
  pos x hx := absurd hx List.not_mem_nil

theorem Released.trans {c : Uuid} {qs qs' : List (Uuid × ℤ)}
    {t t' t'' : Table (Uuid × Uuid) PriceItem} (h : Released c qs t t')
    (h' : Released c qs' t' t'') : Released c (qs ++ qs') t t'' where
  find_eq k := by
    rw [h'.find_eq, h.find_eq, Option.map_map]
    congr 1
    funext p
    dsimp only [Function.comp]
    rw [demand_append, released_released _ (demand_nonneg h.pos k) (demand_nonneg h'.pos k)]
  pos := by
    rw [List.forall_mem_append]
    exact ⟨h.pos, h'.pos⟩

/-- Every quantity to be released is held by the counter of an active price item. -/
structure Covered (contractId : Uuid) (qs : List (Uuid × ℤ))
    (t : Table (Uuid × Uuid) PriceItem) : Prop where
  /-- Only positive quantities are released. -/
  pos : ∀ x ∈ qs, 0 < x.2
  /-- Each product's counter is at least its demand. -/
  le_used : ∀ x ∈ qs, ∃ p, t.find? (contractId, x.1) = some p ∧ p.isActive = true ∧
    demand contractId qs (contractId, x.1) ≤ p.quantityUsed

/-- The quantities fit into what is left of the quotas. -/
def WithinQuota (contractId : Uuid) (qs : List (Uuid × ℤ))
    (t : Table (Uuid × Uuid) PriceItem) : Prop :=
  ∀ x ∈ qs, ∃ p, t.find? (contractId, x.1) = some p ∧ p.isActive = true ∧
    (p.quantity = 0 ∨ p.quantityUsed + x.2 ≤ p.quantity)

/-! ## The rules of the repository -/

section Rules

variable {R : Regime schema} {E : Err → Prop} {s : Db}

/-- The locking read changes nothing and returns current active rows. -/
theorem wp_getForProductsLocked (contractId : Uuid) (productIds : List Uuid)
    {Q : List (Uuid × PriceItem) → Db → Prop}
    (hQ : ∀ rows, (∀ x ∈ rows, x.1 ∈ productIds ∧
      s.priceItems.find? (contractId, x.1) = some x.2 ∧ x.2.isActive = true) → Q rows s) :
    wp R (getForProductsLocked contractId productIds) Q E s := by
  rw [getForProductsLocked, wp_bind, wp_ask]
  intro v _
  rw [wp_bind]
  let read (c : Uuid × Uuid) : Uuid × Option PriceItem :=
    (c.1, (s.priceItems.find? (contractId, c.1)).filter fun p => p.id = c.2 && p.isActive)
  refine wp_collect_reads (R := R) read ?_ (hQ _ fun x hx => ?_)
  · exact fun c _ Q hQ => hQ
  obtain ⟨r, hr, hx⟩ := List.mem_filterMap.mp hx
  obtain ⟨c, hc, rfl⟩ := List.mem_map.mp hr
  obtain ⟨p, hp, rfl⟩ := Option.map_eq_some_iff.mp hx
  obtain ⟨hp, hactive⟩ := Option.filter_eq_some_iff.mp hp
  obtain ⟨productId, hproduct, hc⟩ := List.mem_filterMap.mp hc
  obtain ⟨row, -, rfl⟩ := Option.map_eq_some_iff.mp hc
  have hmem : productId ∈ productIds :=
    List.mem_dedup.mp ((List.mem_insertionSort _).mp hproduct)
  exact ⟨hmem, hp, (Bool.and_eq_true_iff.mp hactive).2⟩

/-- Raising the counters either raises all of them or fails. -/
theorem wp_incrementQuantitiesUsed (ht : Tame R E) (contractId : Uuid)
    (items : List (Uuid × Uuid × ℤ)) {Q : Unit → Db → Prop}
    (hQ : ∀ t, Reserved contractId (items.map fun x => (x.1, x.2.2)) s.priceItems t →
      Q () { s with priceItems := t }) :
    wp R (incrementQuantitiesUsed contractId items) Q E s := by
  refine wp_loop (fun done s' => ∃ t,
      Reserved contractId (done.map fun x => (x.1, x.2.2)) s.priceItems t ∧
      s' = { s with priceItems := t })
    ⟨s.priceItems, reserved_nil contractId s.priceItems, rfl⟩ ?_ ?_
  · rintro done ⟨productId, itemId, delta⟩ todo _ - ⟨t, hreserved, rfl⟩
    dsimp only
    rw [wp_bind, wp_raiseIf]
    refine ⟨fun _ => ht.err _ rfl, fun hdelta => ?_⟩
    rw [wp_bind, wp_locked, wp_bind]
    refine wp_issue ht (k := .priceItem contractId productId) (by exact not_false) fun _ r hr => ?_
    rw [wp_raiseIf]
    refine ⟨fun _ => ht.err _ rfl, fun hrow => ?_⟩
    change (PriceItemStmt.increment itemId delta).exec (t.find? (contractId, productId)) = .ok r at hr
    change ¬ ¬ (t.find? (contractId, productId)).any (fun p => p.id = itemId) = true at hrow
    cases hfind : t.find? (contractId, productId) with
    | none => simp [hfind] at hrow
    | some row =>
      have hid : row.id = itemId := by simpa [hfind] using hrow
      rw [hfind] at hr
      dsimp only [PriceItemStmt.exec] at hr
      rw [if_pos hid] at hr
      obtain ⟨rfl, -⟩ := checked_ok hr
      refine ⟨_, ?_, rfl⟩
      rw [List.map_append]
      exact hreserved.trans (reserved_put hfind (not_le.mp hdelta))
  · rintro _ ⟨t, hreserved, rfl⟩
    exact hQ t hreserved

/-- A reservation: the lines fit into the quotas they were checked against. -/
theorem wp_checkAndReserveQuantities (ht : Tame R E) (contractId : Uuid)
    {items : List (Uuid × ℤ)} {priceItemMap : List (Uuid × PriceItem)}
    (hmap : ∀ x ∈ priceItemMap,
      s.priceItems.find? (contractId, x.1) = some x.2 ∧ x.2.isActive = true)
    (hall : ∀ x ∈ items, (priceItemMap.lookup x.1).isSome = true) {Q : Unit → Db → Prop}
    (hQ : ∀ t, WithinQuota contractId items s.priceItems →
      Reserved contractId items s.priceItems t → Q () { s with priceItems := t }) :
    wp R (checkAndReserveQuantities contractId items priceItemMap) Q E s := by
  have hlookup : ∀ x ∈ items, ∃ p, priceItemMap.lookup x.1 = some p ∧
      s.priceItems.find? (contractId, x.1) = some p ∧ p.isActive = true := by
    intro x hx
    obtain ⟨p, hp⟩ := Option.isSome_iff_exists.mp (hall x hx)
    obtain ⟨l₁, l₂, hsplit, -⟩ := List.lookup_eq_some_iff.mp hp
    have hmem : (x.1, p) ∈ priceItemMap := by
      rw [hsplit]
      exact List.mem_append_right _ List.mem_cons_self
    exact ⟨p, hp, hmap _ hmem⟩
  rw [checkAndReserveQuantities, wp_bind]
  refine wp_loop (fun done s' => s' = s ∧ WithinQuota contractId done s.priceItems)
    ⟨rfl, fun x hx => absurd hx List.not_mem_nil⟩ ?_ ?_
  · rintro done ⟨productId, quantity⟩ todo _ hdone ⟨rfl, hwithin⟩
    obtain ⟨p, hp, hfind, hactive⟩ := hlookup (productId, quantity)
      (hdone ▸ List.mem_append_right _ List.mem_cons_self)
    dsimp only at hp hfind ⊢
    rw [hp, whenSome, wp_raiseIf]
    refine ⟨fun _ => ht.err _ rfl, fun hquota => ⟨rfl, fun x hx => ?_⟩⟩
    rcases List.mem_append.mp hx with hx | hx
    · exact hwithin x hx
    · rw [List.mem_singleton.mp hx]
      exact ⟨p, hfind, hactive, by dsimp only; omega⟩
  · rintro _ ⟨rfl, hwithin⟩
    refine wp_incrementQuantitiesUsed ht contractId _ fun t hreserved => hQ t hwithin ?_
    have hpairs : (items.filterMap fun x => (priceItemMap.lookup x.1).map fun p =>
        (x.1, p.id, x.2)).map (fun x => (x.1, x.2.2)) = items := by
      rw [List.map_filterMap]
      refine (List.filterMap_congr fun x hx => ?_).trans List.filterMap_some
      obtain ⟨p, hp, -⟩ := hlookup x hx
      rw [hp]
      rfl
    rwa [hpairs] at hreserved

/-- Running the release of some quantities lowers the counters. -/
def Releases (R : Regime schema) (E : Err → Prop) (contractId : Uuid) (qs : List (Uuid × ℤ))
    (t : Table (Uuid × Uuid) PriceItem) : Prop :=
  ∀ s : Db, s.priceItems = t → ∀ Q : Unit → Db → Prop,
    (∀ t', Released contractId qs t t' → Q () { s with priceItems := t' }) →
    wp R (decrementQuantitiesUsed contractId qs) Q E s

/-- The release of one entry: what its statement has to be shown to satisfy and
what its failure means are left to the caller. -/
theorem wp_decrement {contractId productId : Uuid} {delta : ℤ} {Q : Unit → Db → Prop}
    (hpos : delta ≤ 0 → E (.decrementNotPositive productId delta))
    (hassert : 0 < delta → R.asserts (.priceItem contractId productId) (.decrement delta)
      (s.priceItems.find? (contractId, productId)))
    (hexec : 0 < delta → ∀ e, (PriceItemStmt.decrement delta).exec
      (s.priceItems.find? (contractId, productId)) = .error e → E e)
    (hmissing : ¬ (s.priceItems.find? (contractId, productId)).any PriceItem.isActive →
      E (.decrementNoRows contractId productId))
    (hok : ∀ t, (s.priceItems.find? (contractId, productId)).any PriceItem.isActive = true →
      Released contractId [(productId, delta)] s.priceItems t → Q () { s with priceItems := t }) :
    wp R (do
      raiseIf (delta ≤ 0) (.decrementNotPositive productId delta)
      let row ← forUpdate (.priceItem contractId productId)
      issue (.priceItem contractId productId) (.decrement delta)
      raiseIf (¬ row.any PriceItem.isActive) (.decrementNoRows contractId productId)) Q E s := by
  rw [wp_bind, wp_raiseIf]
  refine ⟨hpos, fun hdelta => ?_⟩
  have hdelta := not_le.mp hdelta
  rw [wp_bind, wp_locked, wp_bind]
  refine wp_execute_of (hassert hdelta) (fun _ r hr => ?_) fun e he => hexec hdelta e he
  rw [wp_raiseIf]
  refine ⟨hmissing, fun hrow => ?_⟩
  change (PriceItemStmt.decrement delta).exec (s.priceItems.find? (contractId, productId)) = .ok r at hr
  change ¬ ¬ (s.priceItems.find? (contractId, productId)).any PriceItem.isActive = true at hrow
  cases hfind : s.priceItems.find? (contractId, productId) with
  | none => simp [hfind] at hrow
  | some row =>
    have hactive : row.isActive = true := by simpa [hfind] using hrow
    rw [hfind] at hr
    dsimp only [PriceItemStmt.exec] at hr
    rw [if_pos hactive] at hr
    obtain ⟨rfl, -⟩ := checked_ok hr
    refine hok _ (not_not.mp hrow) ⟨fun k => ?_, by simpa using hdelta⟩
    rw [Table.find?_put, demand_singleton]
    split
    · next hk => rw [hk, hfind, Option.map_some, released, if_neg (by omega)]
    · simp [released_zero]

/-- Where failures are allowed and nothing has to be shown, a release lowers the counters. -/
theorem releases_of_lax (hlax : R.Lax) (contractId : Uuid) (qs : List (Uuid × ℤ))
    (t : Table (Uuid × Uuid) PriceItem) : Releases R (fun _ => True) contractId qs t := by
  rintro s rfl Q hQ
  refine wp_loop (fun done s' => ∃ t,
      Released contractId done s.priceItems t ∧ s' = { s with priceItems := t })
    ⟨s.priceItems, released_nil contractId s.priceItems, rfl⟩ ?_ ?_
  · rintro done ⟨productId, delta⟩ todo _ - ⟨t, hreleased, rfl⟩
    refine wp_decrement (fun _ => trivial) (fun _ => hlax _ _ _) (fun _ _ _ => trivial)
      (fun _ => trivial) ?_
    exact fun t' _ ht' => ⟨t', hreleased.trans ht', rfl⟩
  · rintro _ ⟨t, hreleased, rfl⟩
    exact hQ t hreleased

/-- The row of a release is active and its counter holds the quantity. -/
def NoClip : (k : Key) → Stmt k → Option (Row k) → Prop
  | .priceItem _ _, .decrement delta, old =>
    ∃ p : PriceItem, old = some p ∧ p.isActive = true ∧ delta ≤ p.quantityUsed
  | _, _, _ => True

theorem tame_noClip : Tame (Regime.serialAsserting NoClip) fun e => e.isQuotaLeak = false where
  sound := Regime.serialAsserting_sound NoClip
  lax k st old hst := by
    cases k with
    | priceItem c p =>
      cases st with
      | decrement delta => exact absurd trivial hst
      | _ => exact trivial
    | _ => exact trivial
  err _ he := he

/-- Covered quantities are released without clipping and without a missing row. -/
theorem releases_of_covered (hassert : ∀ k st old, NoClip k st old → R.asserts k st old)
    {contractId : Uuid} {qs : List (Uuid × ℤ)} {t : Table (Uuid × Uuid) PriceItem}
    (hcovered : Covered contractId qs t) :
    Releases R (fun e => e.isQuotaLeak = false) contractId qs t := by
  rintro s rfl Q hQ
  refine wp_loop (fun done s' => ∃ t,
      Released contractId done s.priceItems t ∧ s' = { s with priceItems := t })
    ⟨s.priceItems, released_nil contractId s.priceItems, rfl⟩ ?_ ?_
  · rintro done ⟨productId, delta⟩ todo _ hdone ⟨t, hreleased, rfl⟩
    have hmem : (productId, delta) ∈ qs := hdone ▸ List.mem_append_right _ List.mem_cons_self
    obtain ⟨p, hp, hactive, hle⟩ := hcovered.le_used _ hmem
    have htodo : ∀ x ∈ (productId, delta) :: todo, 0 < x.2 := fun x hx =>
      hcovered.pos x (hdone ▸ List.mem_append_right _ hx)
    have hdelta : 0 < delta := htodo _ List.mem_cons_self
    have hrest : delta ≤ demand contractId ((productId, delta) :: todo) (contractId, productId) :=
      le_demand htodo List.mem_cons_self
    rw [← hdone, demand_append] at hle
    have hrow := hreleased.find_eq (contractId, productId)
    dsimp only at hp hle
    rw [hp, Option.map_some, released_of_le (by omega)] at hrow
    refine wp_decrement (fun h => absurd hdelta (not_lt.mpr h))
      (fun _ => hassert _ _ _ ⟨_, hrow, hactive, ?_⟩)
      (fun _ e he => exec_not_leak (.priceItem contractId productId) (.decrement delta) _ he) ?_ ?_
    · dsimp only
      omega
    · exact fun hnone => absurd (by rw [hrow]; exact hactive) hnone
    · exact fun t' _ ht' => ⟨t', hreleased.trans ht', rfl⟩
  · rintro _ ⟨t, hreleased, rfl⟩
    exact hQ t hreleased

/-- A counter that passes its checks still passes them after a release. -/
theorem constraints_released {p : PriceItem} (h : ∀ c ∈ p.constraints, c.1 = true) {used : ℤ}
    (hnonneg : 0 ≤ used) (hle : used ≤ p.quantityUsed) :
    ∀ c ∈ ({ p with quantityUsed := used } : PriceItem).constraints, c.1 = true := by
  simp only [PriceItem.constraints, List.forall_mem_cons, List.not_mem_nil, false_implies,
    implies_true, and_true, int32, Bool.and_eq_true, decide_eq_true_eq] at h ⊢
  obtain ⟨hprice, hquantity, hused, hprice', hquantity', hused'⟩ := h
  exact ⟨hprice, hquantity, ⟨by omega, by omega⟩, hprice', hquantity', hnonneg⟩

/-- A release of quota that only a missing price item can stop. -/
theorem wp_releaseAll (hlax : R.Lax) {contractId : Uuid} {qs : List (Uuid × ℤ)}
    (hpos : ∀ x ∈ qs, 0 < x.2)
    (hsure : Sure E (∀ x ∈ qs, ∃ p, s.priceItems.find? (contractId, x.1) = some p ∧
      p.isActive = true ∧ ∀ c ∈ p.constraints, c.1 = true)) {Q : Unit → Db → Prop}
    (hQ : ∀ t, Released contractId qs s.priceItems t →
      (∀ x ∈ qs, (s.priceItems.find? (contractId, x.1)).any PriceItem.isActive = true) →
      Q () { s with priceItems := t }) :
    wp R (decrementQuantitiesUsed contractId qs) Q E s := by
  refine wp_loop (fun done s' => ∃ t, Released contractId done s.priceItems t ∧
      (∀ x ∈ done, (s.priceItems.find? (contractId, x.1)).any PriceItem.isActive = true) ∧
      s' = { s with priceItems := t })
    ⟨s.priceItems, released_nil contractId s.priceItems, fun x hx => absurd hx List.not_mem_nil, rfl⟩
    ?_ ?_
  · rintro done ⟨productId, delta⟩ todo _ hdone ⟨t, hreleased, hactive, rfl⟩
    have hmem : (productId, delta) ∈ qs := hdone ▸ List.mem_append_right _ List.mem_cons_self
    have hdelta : 0 < delta := hpos _ hmem
    have hrow := hreleased.find_eq (contractId, productId)
    have hsame : (t.find? (contractId, productId)).any PriceItem.isActive =
        (s.priceItems.find? (contractId, productId)).any PriceItem.isActive := by
      rw [hrow, Option.any_map]
    refine wp_decrement (fun h => absurd hdelta (not_lt.mpr h)) (fun _ => hlax _ _ _)
      (fun _ e he => hsure.err (fun hok => ?_) e) (fun hnone => hsure.err (fun hok => ?_) _) ?_
    · obtain ⟨p, hp, hactive, hchecks⟩ := hok _ hmem
      have hnonneg : 0 ≤ p.quantityUsed := by
        have h := hchecks (decide (0 ≤ p.quantityUsed),
          .checkViolation "ck_contract_price_item_quantity_used_non_neg")
          (by simp [PriceItem.constraints])
        exact of_decide_eq_true h
      dsimp only at hp he
      rw [hrow, hp, Option.map_some, PriceItemStmt.exec, if_pos (by exact hactive)] at he
      have hdone := demand_nonneg (c := contractId) hreleased.pos (contractId, productId)
      have hfits : ∀ c ∈ ({ p with
          quantityUsed := max (released p.quantityUsed (demand contractId done (contractId, productId)) -
            delta) 0 } : PriceItem).constraints, c.1 = true := by
        refine constraints_released hchecks (le_max_right _ _) ?_
        unfold released
        split <;> omega
      rw [checked_of_forall hfits] at he
      cases he
    · obtain ⟨p, hp, hactive, -⟩ := hok _ hmem
      dsimp only at hp
      rw [hsame, hp] at hnone
      exact hnone hactive
    · intro t' hfound ht'
      refine ⟨t', hreleased.trans ht', fun x hx => ?_, rfl⟩
      rcases List.mem_append.mp hx with hx | hx
      · exact hactive x hx
      · rw [List.mem_singleton.mp hx, ← hsame]
        exact hfound
  · rintro _ ⟨t, hreleased, hactive, rfl⟩
    exact hQ t hreleased hactive

end Rules

end Munavvar.Quota
