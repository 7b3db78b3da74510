import Munavvar.StockService
import Munavvar.Deliveries
import Munavvar.Dashboard

/-!
# Requested transfers

A requested transfer is checked in many places: the caller's scopes, the
products, the inventories, the table of routes, the stock of the source and at
last the trigger. Together these checks refuse nothing but what one of them is
there to refuse, and the trigger has nothing left to object to.
-/

namespace Munavvar.TransferRequests

open Munavvar.KeyedTable
open Munavvar.Transaction
open Munavvar.Transaction.Prog
open Munavvar.ReadCommitted
open Munavvar.Database
open Munavvar.DoubleEntry
open Munavvar.StockLedger
open Munavvar.StockConservation
open Munavvar.Statements
open Munavvar.OrderQueries
open Munavvar.StockService
open Munavvar.StockTransfers
open Munavvar.ShortageCheck (wp_scalarOneOrNone wp_getInventoryWithBalances inventory?_id
  inventory?_of_mem isPhysical_of_mem not_isPhysical filter_of_pos stockOf)
open Munavvar.Deliveries (Sure.granted)
open Munavvar.Bag (amount)

/-! ## What is asked for -/

/-- The only inventory of the system with a type. -/
def systemInventory? (d : Directory) (type : InventoryType) : Option Uuid :=
  match d.inventories.filter fun i => i.userId = some systemUserId && i.type = type with
  | [i] => some i.id
  | _ => none

/-- The inventory at one end after the virtual ones have been put in. -/
def endOf (d : Directory) (types : List TransferType) (invType : InventoryType)
    (type : TransferType) (named : Option Uuid) : Option Uuid :=
  if type ∈ types then systemInventory? d invType else named

/-- How much of a product a request moves. -/
def demand (dto : CreateTransferRequest) (p : Uuid) : ℤ := amount (dto.items.map Item.pair) p

/-- A request that every check admits. -/
structure Admitted (callerScopes : Option (List String)) (dto : CreateTransferRequest)
    (source target : Inventory) (s : Db) : Prop where
  /-- The caller has the scope that the type needs. -/
  permitted : dto.type ∈ adjustmentTransferTypes →
    (callerScopes.any fun scopes => logisticsAdjustment ∈ scopes) = true
  /-- Every product is active. -/
  products_active : ∀ i ∈ dto.items, (s.products.find? i.productId).any Product.isActive = true
  /-- The inventory that gives. -/
  source_named : endOf s.directory virtualSourceTypes .virtualVendor dto.type dto.fromId =
    some source.id
  /-- The inventory that takes. -/
  target_named : endOf s.directory virtualDestTypes .virtualLoss dto.type dto.toId = some target.id
  /-- The source exists. -/
  source_known : s.directory.inventory? source.id = some source
  /-- It is active. -/
  source_active : source.isActive = true
  /-- The target exists. -/
  target_known : s.directory.inventory? target.id = some target
  /-- It is active. -/
  target_active : target.isActive = true
  /-- They are two inventories. -/
  route : source.id ≠ target.id
  /-- Transfers of the type start at such inventories. -/
  from_allowed : source.type ∈ (validRoutes dto.type).1
  /-- Transfers of the type end at such inventories. -/
  to_allowed : target.type ∈ (validRoutes dto.type).2
  /-- The source holds what the lines of a product ask for together. -/
  covered : source.type ≠ .virtualVendor → ∀ p, 0 < demand dto p →
    demand dto p ≤ balance s.balances (source.id, p)

theorem pairs_pos (dto : CreateTransferRequest) : ∀ x ∈ dto.items.map Item.pair, 0 < x.2 := by
  intro x hx
  obtain ⟨i, _, rfl⟩ := List.mem_map.mp hx
  exact i.quantity_pos

section Checks

variable {R : Regime schema} {E : Err → Prop} {s : Db}

/-- The lines of a product are short exactly if they ask for more than there is. -/
theorem transferShortages_eq_nil (b : Uuid → ℤ) (dto : CreateTransferRequest) :
    transferShortages b dto.items = [] ↔ ∀ p, 0 < demand dto p → demand dto p ≤ b p := by
  unfold transferShortages demand
  rw [List.filterMap_eq_nil_iff]
  constructor
  · intro h p hp
    by_contra hshort
    have hkey : p ∈ (Bag.collect (dto.items.map Item.pair)).map Prod.fst := by
      by_contra hnot
      rw [← Bag.amount_collect, Bag.amount_eq_zero hnot] at hp
      omega
    obtain ⟨x, hx, rfl⟩ := List.mem_map.mp hkey
    have hx' := h x hx
    rw [Bag.eq_amount_of_mem_collect hx, if_pos (by omega)] at hx'
    cases hx'
  · intro h x hx
    have hx' := Bag.eq_amount_of_mem_collect hx
    have hle := h x.1 (by rw [← hx']; exact Bag.collect_pos (pairs_pos dto) x hx)
    rw [if_neg (by omega)]

/-- The system's inventory of a type is found, or the transfer fails. -/
theorem wp_endpoint (hexact : R.Exact) (types : List TransferType) (invType : InventoryType)
    (type : TransferType) (named : Option Uuid) {Q : Option Uuid → Db → Prop}
    (hmissing : type ∈ types → systemInventory? s.directory invType = none → ∀ e, E e)
    (hQ : Q (endOf s.directory types invType type named) s) :
    wp R (endpoint types invType type named) Q E s := by
  unfold endpoint
  unfold endOf at hQ
  by_cases hvirtual : type ∈ types
  · rw [if_pos hvirtual] at hQ ⊢
    have hfails := hmissing hvirtual
    rw [wp_bind, getSystemInventory, wp_bind]
    refine wp_ask_exact hexact ?_
    rw [wp_bind, wp_scalarOneOrNone]
    unfold systemInventory? at hfails hQ
    constructor
    · intro hnil
      rw [wp_orRaise]
      constructor
      · intro _
        exact hfails (by rw [hnil]) _
      · intro _ hsome
        cases hsome
    · constructor
      · intro i hi
        rw [hi] at hQ
        rw [wp_orRaise]
        constructor
        · intro hnone
          cases hnone
        · intro _ hsome
          cases hsome
          exact hQ
      · intro hmany
        apply hfails
        split
        · next hone =>
          rw [hone] at hmany
          simp at hmany
        · rfl
  · rw [if_neg hvirtual] at hQ ⊢
    exact hQ

/-- An active inventory is found, or the transfer fails. -/
theorem wp_getInventory (hexact : R.Exact) (id : Uuid) {Q : Inventory → Db → Prop}
    (hmissing : (∀ i, s.directory.inventory? id = some i → i.isActive = false) → ∀ e, E e)
    (hQ : ∀ i, s.directory.inventory? id = some i → i.id = id → i.isActive = true → Q i s) :
    wp R (getInventory id) Q E s := by
  unfold getInventory
  rw [wp_bind]
  refine wp_ask_exact hexact ?_
  rw [wp_orRaise]
  constructor
  · intro hnone
    apply hmissing
    intro i hi
    rw [hi, Option.filter_eq_none_iff] at hnone
    exact Bool.eq_false_of_not_eq_true (hnone i rfl)
  · intro i hi
    obtain ⟨hfound, hactive⟩ := Option.filter_eq_some_iff.mp hi
    exact hQ i hfound (inventory?_id hfound) hactive

/-- The source holds the goods, or the transfer fails. -/
theorem wp_checkStock (hexact : R.Exact) {source : Inventory} {dto : CreateTransferRequest}
    (hknown : s.directory.inventory? source.id = some source) (hactive : source.isActive = true)
    {Q : Unit → Db → Prop}
    (hshort : ¬ (source.type ≠ .virtualVendor → ∀ p, 0 < demand dto p →
      demand dto p ≤ balance s.balances (source.id, p)) → ∀ e, E e)
    (hQ : (source.type ≠ .virtualVendor → ∀ p, 0 < demand dto p →
      demand dto p ≤ balance s.balances (source.id, p)) → Q () s) :
    wp R (checkStock source dto.items) Q E s := by
  rw [checkStock, wp_whenever]
  constructor
  · intro hvendor
    rw [wp_bind]
    refine wp_getInventoryWithBalances hexact source.id none ?_
    rw [hknown, Option.filter_some, hactive, Option.all_none, Bool.and_true, if_pos rfl,
      Option.map_some, wp_bind, wp_orRaise]
    constructor
    · intro hnone
      cases hnone
    · intro x hx
      cases hx
      rw [wp_raiseIf]
      have hiff := transferShortages_eq_nil (stockOf s source.id) dto
      constructor
      · intro hne
        exact hshort (fun hcovered => hne (hiff.mpr (hcovered hvendor))) _
      · intro hnil
        exact hQ fun _ => hiff.mp (not_not.mp hnil)
  · intro hvendor
    exact hQ fun hne => absurd hne hvendor

/-- The products of a request that are archived or unknown are reported. -/
theorem archivedIds_eq_nil (s : Db) (dto : CreateTransferRequest) :
    (dto.items.map Item.productId).filter (fun id => ((s.products.rows.filter fun r =>
      r.1 ∈ dto.items.map Item.productId && r.2.isActive).lookup id).isNone) = [] ↔
    ∀ i ∈ dto.items, (s.products.find? i.productId).any Product.isActive = true := by
  rw [List.filter_eq_nil_iff, List.forall_mem_map]
  apply forall₂_congr
  intro i hi
  rw [Option.isNone_iff_eq_none, List.lookup_eq_none_iff]
  constructor
  · intro hsome
    by_contra hinactive
    apply hsome
    intro r hr
    obtain ⟨hrow, hactive⟩ := List.mem_filter.mp hr
    rw [Bool.and_eq_true] at hactive
    rw [bne_iff_ne]
    intro heq
    apply hinactive
    rw [heq, (Table.mem_rows_iff _ r.1 r.2).mp hrow, Option.any_some, hactive.2]
  · intro hactive hnone
    obtain ⟨product, hproduct, hactive⟩ := (Option.any_eq_true _ _).mp hactive
    have hrow : (i.productId, product) ∈ s.products.rows.filter fun r =>
        r.1 ∈ dto.items.map Item.productId && r.2.isActive := by
      apply List.mem_filter.mpr
      constructor
      · exact (Table.mem_rows_iff _ _ _).mpr hproduct
      · rw [Bool.and_eq_true, decide_eq_true_eq]
        exact ⟨List.mem_map.mpr ⟨i, hi, rfl⟩, hactive⟩
    have hne := hnone _ hrow
    rw [bne_iff_ne] at hne
    exact hne rfl

/-- A request is carried out exactly if every check admits it, and only the
stock ledger is written. -/
theorem wp_createTransfer (hexact : R.Exact) (hlax : R.Lax) {env : Env} {createdById : Uuid}
    {dto : CreateTransferRequest} {callerScopes : Option (List String)}
    (hids : (s.directory.inventories.map Inventory.id).Nodup)
    (hnonneg : ∀ i, NonNegative s i)
    (hsure : Sure E (∃ source target, Admitted callerScopes dto source target s ∧
      Insertable env 0 source.id target.id (dto.items.map Item.pair) dto.reason s))
    {Q : Unit → Db → Prop}
    (hQ : ∀ source target s', Admitted callerScopes dto source target s →
      AfterTransfer env 0 source.id target.id (dto.items.map Item.pair) s s' → Q () s') :
    wp R (createTransfer env createdById dto callerScopes) Q E s := by
  rw [createTransfer, wp_bind]
  apply wp_sure
  · apply hsure.imp
    rintro ⟨_, _, hadmitted, -⟩ ⟨hneeds, hlacks⟩
    exact hlacks (hadmitted.permitted hneeds)
  intro hpermitted
  rw [wp_bind, getByIds]
  refine wp_ask_exact hexact ?_
  rw [wp_bind]
  apply wp_sure
  · apply hsure.imp
    rintro ⟨_, _, hadmitted, -⟩ harchived
    exact harchived ((archivedIds_eq_nil s dto).mpr hadmitted.products_active)
  intro hproducts
  have hproducts := (archivedIds_eq_nil s dto).mp (not_not.mp hproducts)
  rw [wp_bind]
  apply wp_endpoint hexact
  · intro hvirtual hnone
    apply hsure.err
    rintro ⟨source, _, hadmitted, -⟩
    have hnamed := hadmitted.source_named
    rw [endOf, if_pos hvirtual, hnone] at hnamed
    cases hnamed
  rw [wp_bind]
  apply wp_endpoint hexact
  · intro hvirtual hnone
    apply hsure.err
    rintro ⟨_, target, hadmitted, -⟩
    have hnamed := hadmitted.target_named
    rw [endOf, if_pos hvirtual, hnone] at hnamed
    cases hnamed
  rw [wp_bind]
  apply wp_orRaise_sure
  · apply hsure.imp
    rintro ⟨source, _, hadmitted, -⟩
    exact Option.isSome_of_eq_some hadmitted.source_named
  intro fromId hfrom
  rw [wp_bind]
  apply wp_orRaise_sure
  · apply hsure.imp
    rintro ⟨_, target, hadmitted, -⟩
    exact Option.isSome_of_eq_some hadmitted.target_named
  intro toId hto
  have hends : ∀ source target, Admitted callerScopes dto source target s →
      source.id = fromId ∧ target.id = toId := by
    intro source target hadmitted
    constructor
    · exact Option.some.inj (hadmitted.source_named.symm.trans hfrom)
    · exact Option.some.inj (hadmitted.target_named.symm.trans hto)
  rw [wp_bind]
  apply wp_sure
  · apply hsure.imp
    rintro ⟨source, target, hadmitted, -⟩ hloop
    obtain ⟨hsource, htarget⟩ := hends source target hadmitted
    exact hadmitted.route (hsource.trans (hloop.trans htarget.symm))
  intro hroute
  rw [wp_bind]
  apply wp_getInventory hexact
  · intro hnone
    apply hsure.err
    rintro ⟨source, target, hadmitted, -⟩
    have hknown := hadmitted.source_known
    rw [(hends source target hadmitted).1] at hknown
    exact absurd (hnone source hknown) (by simp [hadmitted.source_active])
  intro source hsource hsourceId hsourceActive
  rw [wp_bind]
  apply wp_getInventory hexact
  · intro hnone
    apply hsure.err
    rintro ⟨source', target, hadmitted, -⟩
    have hknown := hadmitted.target_known
    rw [(hends source' target hadmitted).2] at hknown
    exact absurd (hnone target hknown) (by simp [hadmitted.target_active])
  intro target htarget htargetId htargetActive
  -- From here on it is known which inventories any admission is about.
  have hsame : ∀ source' target', Admitted callerScopes dto source' target' s →
      source' = source ∧ target' = target := by
    intro source' target' hadmitted
    obtain ⟨hfromId, htoId⟩ := hends source' target' hadmitted
    have hknown := hadmitted.source_known
    have hknown' := hadmitted.target_known
    rw [hfromId, hsource] at hknown
    rw [htoId, htarget] at hknown'
    exact ⟨(Option.some.inj hknown).symm, (Option.some.inj hknown').symm⟩
  subst hsourceId
  subst htargetId
  rw [wp_bind]
  apply wp_sure
  · apply hsure.imp
    rintro ⟨source', target', hadmitted, -⟩ htype
    obtain ⟨rfl, rfl⟩ := hsame source' target' hadmitted
    exact htype hadmitted.from_allowed
  intro hfromAllowed
  rw [wp_bind]
  apply wp_sure
  · apply hsure.imp
    rintro ⟨source', target', hadmitted, -⟩ htype
    obtain ⟨rfl, rfl⟩ := hsame source' target' hadmitted
    exact htype hadmitted.to_allowed
  intro htoAllowed
  rw [wp_bind]
  apply wp_checkStock hexact hsource hsourceActive
  · intro hshort
    apply hsure.err
    rintro ⟨source', target', hadmitted, -⟩
    obtain ⟨rfl, rfl⟩ := hsame source' target' hadmitted
    exact hshort hadmitted.covered
  intro hcovered
  have hadmitted : Admitted callerScopes dto source target s := by
    constructor
    · intro hneeds
      by_contra hlacks
      exact hpermitted ⟨hneeds, hlacks⟩
    · exact hproducts
    · exact hfrom
    · exact hto
    · exact hsource
    · exact hsourceActive
    · exact htarget
    · exact htargetActive
    · exact hroute
    · exact not_not.mp hfromAllowed
    · exact not_not.mp htoAllowed
    · exact hcovered
  apply wp_createStockTransfer hexact hlax
  · apply Sure.granted
    apply hsure.imp
    rintro ⟨source', target', hadmitted', hinsertable⟩
    obtain ⟨rfl, rfl⟩ := hsame source' target' hadmitted'
    exact hinsertable
  · -- The trigger asks no more of the source than the check before.
    left
    constructor
    · exact hnonneg target.id
    · intro hphysical p
      rw [filter_of_pos (pairs_pos dto)]
      by_cases hp : 0 < demand dto p
      · apply hcovered _ p hp
        intro hvendor
        rw [not_isPhysical hids (List.mem_of_find?_eq_some hsource) hvendor] at hphysical
        cases hphysical
      · have hstock := hnonneg source.id hphysical p
        unfold demand at hp
        omega
  · intro s' hafter
    exact hQ source target s' hadmitted hafter

end Checks

/-! ## Outcomes -/

/-- The identifiers of new rows are new. -/
structure Fresh (env : Env) (s : Db) : Prop where
  /-- They differ. -/
  ids_inj : ∀ j j', env.uuid 0 j = env.uuid 0 j' → j = j'
  /-- No transfer has one of them. -/
  transfers_new : ∀ j, s.stockTransfers.find? (env.uuid 0 j) = none
  /-- No movement has one of them. -/
  movements_new : ∀ j, s.stockTransactions.find? (env.uuid 0 j) = none

/-- The quantities and the resulting balances fit their columns. -/
structure InColumns (dto : CreateTransferRequest) (s : Db) : Prop where
  /-- Each line fits. -/
  quantity : ∀ i ∈ dto.items, int32 i.quantity = true
  /-- So do the balances of what is moved, before and after. -/
  range : ∀ fromId toId,
    endOf s.directory virtualSourceTypes .virtualVendor dto.type dto.fromId = some fromId →
    endOf s.directory virtualDestTypes .virtualLoss dto.type dto.toId = some toId →
    ∀ p, 0 < demand dto p → FitsColumn (balance s.balances (fromId, p)) (-demand dto p) ∧
      FitsColumn (balance s.balances (toId, p)) (demand dto p)

/-- What a requested transfer does. -/
structure Moved (env : Env) (dto : CreateTransferRequest) (source target : Inventory) (s s' : Db) :
    Prop where
  /-- The requested quantities have moved and all other balances are as they were. -/
  transferred : Transferred source.id target.id (demand dto) s.balances s'.balances
  /-- The other tables are as they were. -/
  others : SameButStock s s'
  /-- So are the other transfers. -/
  transfers_eq : ∀ id, (∀ j, id ≠ env.uuid 0 j) → s'.stockTransfers.find? id = s.stockTransfers.find? id
  /-- Each line is a movement, and the other movements are as they were. -/
  recorded : Stored (movementsFor env 0 source.id target.id (dto.items.map Item.pair))
    s.stockTransactions s'.stockTransactions

theorem moved_of_after {env : Env} {dto : CreateTransferRequest} {source target : Inventory}
    {s s' : Db} (h : AfterTransfer env 0 source.id target.id (dto.items.map Item.pair) s s') :
    Moved env dto source target s s' := by
  have htransferred := h.transferred
  have hrecorded := h.recorded
  rw [filter_of_pos (pairs_pos dto)] at htransferred hrecorded
  constructor
  · exact htransferred
  · exact h.same
  · exact h.transfers_eq
  · exact hrecorded

/-- An admitted request that fits the columns can be entered. -/
theorem Admitted.insertable {callerScopes : Option (List String)} {dto : CreateTransferRequest}
    {source target : Inventory} {s : Db} (h : Admitted callerScopes dto source target s) {env : Env}
    (hfresh : Fresh env s) (hcolumns : InColumns dto s) :
    Insertable env 0 source.id target.id (dto.items.map Item.pair) dto.reason s := by
  constructor
  · exact hfresh.ids_inj
  · exact hfresh.transfers_new 0
  · exact hfresh.movements_new
  · exact Option.isSome_iff_exists.mpr ⟨source, h.source_known⟩
  · exact Option.isSome_iff_exists.mpr ⟨target, h.target_known⟩
  · exact h.route
  · unfold fits
    cases hreason : dto.reason with
    | none => rfl
    | some reason => exact decide_eq_true (dto.reason_length reason hreason).2
  · intro x hx
    obtain ⟨i, hi, rfl⟩ := List.mem_map.mp hx
    exact hcolumns.quantity i hi
  · intro p hp
    rw [filter_of_pos (pairs_pos dto)] at hp ⊢
    exact hcolumns.range source.id target.id h.source_named h.target_named p hp

/-- Three bottles in two lines are loaded from the warehouse to the van. -/
def loadBottles : CreateTransferRequest where
  type := .courierLoad
  fromId := some 2
  toId := some 3
  items := [⟨7, 2, Operations.two_pieces⟩, ⟨7, 1, Operations.one_piece⟩]
  reason := none
  items_ne_nil := by decide
  reason_length := by decide
  fromId_isSome := by decide
  toId_isSome := by decide
  reason_isSome := by decide

theorem demand_loadBottles (p : Uuid) : demand loadBottles p = if p = 7 then 3 else 0 := by
  unfold demand loadBottles
  by_cases hp : p = 7
  · rw [hp]
    rfl
  · simp [Item.pair, hp, Ne.symm hp]

/-- Rows with small keys leave the sample's new identifiers free. -/
theorem find?_none_of_keys {V : Type} {t : Table Uuid V} (h : t.rows.all (fun r => r.1 < 1000) = true)
    (j : ℕ) : t.find? (ShortageCheck.sampleEnv.uuid 0 j) = none := by
  cases hfound : t.find? (ShortageCheck.sampleEnv.uuid 0 j) with
  | none => rfl
  | some row =>
    have hkey := List.all_eq_true.mp h _ ((Table.mem_rows_iff _ _ _).mpr hfound)
    have hlt := of_decide_eq_true hkey
    change 1000 + Nat.pair 0 j < 1000 at hlt
    omega

end Munavvar.TransferRequests
