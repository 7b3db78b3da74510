import Munavvar.Keyset
import Munavvar.Pagination
import Mathlib.Data.Prod.Lex
import Mathlib.Data.String.Basic

/-!
# Paging by cursor

The searches for transfers, inventories and warehouses that answer page by page.
Transfers come by the time of their creation and their identifier, the last
first; inventories and warehouses come by their name and identifier. Whoever
follows the cursors of one search receives each row that matches, once and in
order.
-/

namespace Munavvar.CursorSearch

open Munavvar.Database
open Munavvar.Keyset
open Munavvar.Pagination

/-! ## Rows and their order -/

/-- The rows of a table: different identifiers of 128 bits. -/
structure Rows (α : Type) (id : α → Uuid) where
  /-- The rows. -/
  rows : List α
  /-- The identifier is the primary key. -/
  nodup : (rows.map id).Nodup
  /-- An identifier has 128 bits. -/
  id_lt : ∀ r ∈ rows, id r < 2 ^ 128

/-- What a query selects has different identifiers of 128 bits. -/
theorem Rows.select {α : Type} {id : α → Uuid} (t : Rows α id) {query : List α}
    (h : query.Sublist t.rows) : (query.map id).Nodup ∧ ∀ a ∈ query, id a < 2 ^ 128 :=
  ⟨(h.map id).nodup t.nodup, fun a ha => t.id_lt a (h.subset ha)⟩

/-- A row of the transfers. -/
structure TransferRow where
  /-- The row's identifier. -/
  id : Uuid
  /-- When the row was inserted. -/
  createdAt : DateTime
  /-- The document. -/
  transfer : StockTransfer

/-- Names in the order of the database. -/
def Collated : Type := String

/-- The sort key of an inventory. -/
def nameKey [LinearOrder Collated] (i : Inventory) : Collated ×ₗ Uuid := toLex ((i.name : Collated), i.id)

/-- The sort key of a transfer. -/
def creationKey (t : TransferRow) : DateTime ×ₗ Uuid := toLex (t.createdAt, t.id)

/-! ## The queries -/

/-- `ilike_pattern`: a text to be looked for as it is. -/
def ilikePattern (q : String) : String :=
  "%" ++ ((q.replace "\\" "\\\\").replace "%" "\\%").replace "_" "\\_" ++ "%"

/-- The filters of the search for transfers. -/
structure TransferFilter where
  /-- The status of the document. -/
  status : Option TransferStatus
  /-- The kind of the transfer. -/
  transferType : Option TransferType
  /-- The inventory that gives. -/
  fromInventoryId : Option Uuid
  /-- The inventory that takes. -/
  toInventoryId : Option Uuid
  /-- The first time of creation. -/
  dateFrom : Option DateTime
  /-- The last time of creation. -/
  dateTo : Option DateTime
  /-- The owner of a warehouse at one of the ends. -/
  warehouseOwnerId : Option Uuid
  /-- The inventory at one of the ends. -/
  warehouseId : Option Uuid

/-- The warehouses of an owner. -/
def ownerInvIds (inventories : List Inventory) (ownerId : Uuid) : List Uuid :=
  (inventories.filter fun i => i.userId = some ownerId && i.type = .warehouse).map Inventory.id

/-- The transfers that a search is for. -/
def searchedTransfers (inventories : List Inventory) (transfers : List TransferRow)
    (f : TransferFilter) : List TransferRow :=
  transfers.filter fun t =>
    f.status.all (fun status => t.transfer.status = status) &&
    f.transferType.all (fun type => t.transfer.type = type) &&
    f.fromInventoryId.all (fun id => t.transfer.fromId = id) &&
    f.toInventoryId.all (fun id => t.transfer.toId = id) &&
    f.dateFrom.all (fun date => decide (date ≤ t.createdAt)) &&
    f.dateTo.all (fun date => decide (t.createdAt ≤ date)) &&
    f.warehouseId.all (fun id => t.transfer.fromId = id || t.transfer.toId = id) &&
    f.warehouseOwnerId.all fun ownerId =>
      t.transfer.fromId ∈ ownerInvIds inventories ownerId ||
        t.transfer.toId ∈ ownerInvIds inventories ownerId

/-- The inventories that a search is for. -/
def searchedInventories (ilike : String → String → Bool) (inventories : List Inventory)
    (searchQuery : String) (invType : Option InventoryType) : List Inventory :=
  inventories.filter fun i =>
    ilike i.name (ilikePattern searchQuery) && i.isActive && invType.all fun type => i.type = type

/-- The warehouses that are listed. -/
def listedWarehouses (inventories : List Inventory) (ownerId : Option Uuid) : List Inventory :=
  inventories.filter fun i =>
    i.type = .warehouse && i.isActive && ownerId.all fun id => i.userId = some id

section Cursor

variable {α κ : Type} [LinearOrder κ] (value : α → κ) (id : α → Uuid) (query : List α) (size : ℕ)
  (cursor : Option (κ × Uuid))

/-- The first rows after a cursor, in ascending order. -/
def rowsAfter : List α :=
  let rows := query.filter fun r => cursor.all fun c => toLex (value r, id r) > toLex c
  (sorted (fun r => toLex (value r, id r)) rows).take (size + 1)

/-- The first rows after a cursor, in descending order. -/
def rowsBefore : List α :=
  let rows := query.filter fun r => cursor.all fun c => toLex (value r, id r) < toLex c
  (sorted (fun r => OrderDual.toDual (toLex (value r, id r))) rows).take (size + 1)

end Cursor

/-! ## The services -/

/-- The position that a token stands for. An empty token is none, and a sort
value of another type is refused. -/
def positionOf {κ : Type} (std : OtherForms) (isinstance : SortValue → Option κ) :
    Option String → Except Err (Option (κ × Uuid))
  | none => .ok none
  | some token =>
    if token = "" then .ok none
    else do
      let (sortValue, lastId) ← decodeCursor std token
      match isinstance sortValue with
      | some value => .ok (some (value, lastId))
      | none => .error .cursorInvalid

/-- The sort value is a name. -/
def SortValue.str? : SortValue → Option Collated
  | .str s => some s
  | _ => none

/-- The sort value is a time. -/
def SortValue.dt? : SortValue → Option DateTime
  | .dt t => some t
  | _ => none

/-- The name of an inventory. -/
def collatedName (i : Inventory) : Collated := i.name

/-- `search_inventories_cursor`. -/
def searchInventoriesCursor [LinearOrder Collated] (std : OtherForms)
    (ilike : String → String → Bool) (inventories : List Inventory) (searchQuery : String)
    (invType : Option InventoryType) (size : ℕ) (cursorToken : Option String) :
    Except Err (List Inventory × CursorPaginationMeta) := do
  let cursor ← positionOf std SortValue.str? cursorToken
  let query := searchedInventories ilike inventories searchQuery invType
  let rows := rowsAfter collatedName Inventory.id query size cursor
  return buildCursorMeta rows size (fun r => .str r.name) Inventory.id

/-- `get_warehouses_with_balances_cursor`. -/
def getWarehousesWithBalancesCursor [LinearOrder Collated] (std : OtherForms)
    (inventories : List Inventory) (ownerId : Option Uuid) (size : ℕ)
    (cursorToken : Option String) : Except Err (List Inventory × CursorPaginationMeta) := do
  let cursor ← positionOf std SortValue.str? cursorToken
  let query := listedWarehouses inventories ownerId
  let rows := rowsAfter collatedName Inventory.id query size cursor
  return buildCursorMeta rows size (fun r => .str r.name) Inventory.id

/-- `search_transfers_cursor`. -/
def searchTransfersCursor (std : OtherForms) (inventories : List Inventory)
    (transfers : List TransferRow) (f : TransferFilter) (size : ℕ) (cursorToken : Option String) :
    Except Err (List TransferRow × CursorPaginationMeta) := do
  let cursor ← positionOf std SortValue.dt? cursorToken
  let query := searchedTransfers inventories transfers f
  let rows := rowsBefore TransferRow.createdAt TransferRow.id query size cursor
  return buildCursorMeta rows size (fun r => .dt r.createdAt) TransferRow.id

/-! ## Following the cursors -/

/-- A page as a client sees it. -/
def pageOf {α : Type} (r : List α × CursorPaginationMeta) : Page α String :=
  { items := r.1, hasMore := r.2.hasMore, next := r.2.nextCursor }

/-- Whoever starts without a cursor or with an empty one and follows the cursors
receives the rows, each once and in order, and there are no more requests than
rows and one. -/
def YieldsInOrder {α : Type} (serve : Option String → Except Err (List α × CursorPaginationMeta))
    (rows : List α) (before : α → α → Prop) : Prop :=
  ∃ l : List α, l.Perm rows ∧ l.Pairwise before ∧
    ∀ fuel first, rows.length < fuel → first.getD "" = "" →
      follow (fun token => (serve token).map pageOf) fuel first = some (.ok l)

/-- A search reads the cursors that it writes. -/
structure ReadsBack {κ : Type} (std : OtherForms) (isinstance : SortValue → Option κ)
    (sortValue : κ → SortValue) : Prop where
  /-- The sort values are of the expected type. -/
  isinstance_eq : ∀ v, isinstance (sortValue v) = some v
  /-- The codec reads them. -/
  read_eq : ∀ v, readSortValue std (sortValue v).kind (sortValue v).text = some (sortValue v)

theorem ReadsBack.str (std : OtherForms) :
    ReadsBack std SortValue.str? fun name : Collated => .str name :=
  ⟨fun _ => rfl, readSortValue_str std⟩

theorem ReadsBack.dt (std : OtherForms) : ReadsBack std SortValue.dt? SortValue.dt :=
  ⟨fun _ => rfl, readSortValue_dt std⟩

section Search

variable {α κ K : Type} [LinearOrder K] {std : OtherForms} {isinstance : SortValue → Option κ}
  {sortValue : κ → SortValue} {value : α → κ} {id : α → Uuid} {query : List α} {size : ℕ}
  {serve : Option String → Except Err (List α × CursorPaginationMeta)}

theorem positionOf_encodeCursor (h : ReadsBack std isinstance sortValue) {v : κ} {id : Uuid}
    (hid : id < 2 ^ 128) :
    positionOf std isinstance (some (encodeCursor (sortValue v) id)) = .ok (some (v, id)) := by
  have hne := encodeCursor_ne_empty std hid (h.read_eq v)
  have hdecode := decode_encode std hid (h.read_eq v)
  rw [positionOf, if_neg hne, hdecode]
  simp only [bind, Except.bind, h.isinstance_eq]

/-- A search that fetches the rows after a cursor in the order of their keys. -/
theorem follow_search (h : ReadsBack std isinstance sortValue) (key : κ × Uuid ≃ K)
    (hnodup : (query.map id).Nodup) (hid : ∀ a ∈ query, id a < 2 ^ 128) (hsize : 1 ≤ size)
    (hserve : ∀ token, serve token = (positionOf std isinstance token).map fun cursor =>
      buildCursorMeta
        ((sorted (fun a => key (value a, id a))
          (query.filter fun a => cursor.all fun c => key c < key (value a, id a))).take (size + 1))
        size (fun a => sortValue (value a)) id) :
    YieldsInOrder serve query fun a b => key (value a, id a) < key (value b, id b) := by
  have hkeys : (query.map fun a => key (value a, id a)).Nodup := by
    refine List.Nodup.of_map (fun k => (key.symm k).2) ?_
    rw [List.map_map]
    simpa [Function.comp_def] using hnodup
  have hpage : ∀ position : Option K, (∀ k ∈ position, ∃ a ∈ query, key (value a, id a) = k) →
      (fun token => (serve token).map pageOf)
        (position.map fun k => encodeCursor (sortValue (key.symm k).1) (key.symm k).2) =
      .ok (pageAt (fun a => key (value a, id a))
        (fun k => encodeCursor (sortValue (key.symm k).1) (key.symm k).2) query size position) := by
    intro position hposition
    have hcursor : positionOf std isinstance
        (position.map fun k => encodeCursor (sortValue (key.symm k).1) (key.symm k).2) =
        .ok (position.map key.symm) := by
      cases position with
      | none => rfl
      | some k =>
        obtain ⟨a, ha, hk⟩ := hposition k rfl
        have hbound : (key.symm k).2 < 2 ^ 128 := by
          rw [← hk, Equiv.symm_apply_apply]
          exact hid a ha
        exact positionOf_encodeCursor h hbound
    have hafter : (fun a => (position.map key.symm).all fun c =>
        decide (key c < key (value a, id a))) =
        isAfter (fun a => key (value a, id a)) position := by
      funext a
      cases position with
      | none => rfl
      | some k => simp [isAfter]
    dsimp only
    rw [hserve, hcursor]
    simp only [Except.map, hafter, buildCursorMeta, pageOf, pageAt, fetch, decide_eq_true_eq,
      Equiv.symm_apply_apply]
    congr
  refine ⟨sorted (fun a => key (value a, id a)) query, sorted_perm query, sorted_strict hkeys, ?_⟩
  intro fuel first hfuel hfirst
  have hnone : follow (fun token => (serve token).map pageOf) fuel none =
      some (.ok (sorted (fun a => key (value a, id a)) query)) :=
    follow_eq_sorted hkeys hsize hpage hfuel
  cases first with
  | none => exact hnone
  | some token =>
    -- an empty token is read as none
    have htoken : token = "" := hfirst
    have hsame : serve (some token) = serve none := by
      rw [hserve, hserve, htoken]
      rfl
    cases fuel with
    | zero => exact absurd hfuel (Nat.not_lt_zero _)
    | succ fuel =>
      rw [follow] at hnone ⊢
      rwa [hsame]

variable [LinearOrder κ]

/-- A search in ascending order. -/
theorem follow_ascending (h : ReadsBack std isinstance sortValue) (hnodup : (query.map id).Nodup)
    (hid : ∀ a ∈ query, id a < 2 ^ 128) (hsize : 1 ≤ size)
    (hserve : ∀ token, serve token = (positionOf std isinstance token).map fun cursor =>
      buildCursorMeta (rowsAfter value id query size cursor) size (fun a => sortValue (value a))
        id) :
    YieldsInOrder serve query fun a b => toLex (value a, id a) < toLex (value b, id b) :=
  follow_search h toLex hnodup hid hsize hserve

/-- A search in descending order. -/
theorem follow_descending (h : ReadsBack std isinstance sortValue) (hnodup : (query.map id).Nodup)
    (hid : ∀ a ∈ query, id a < 2 ^ 128) (hsize : 1 ≤ size)
    (hserve : ∀ token, serve token = (positionOf std isinstance token).map fun cursor =>
      buildCursorMeta (rowsBefore value id query size cursor) size (fun a => sortValue (value a))
        id) :
    YieldsInOrder serve query fun a b => toLex (value b, id b) < toLex (value a, id a) :=
  follow_search h (toLex.trans OrderDual.toDual) hnodup hid hsize hserve

end Search

/-- Cursor paging is complete and free of duplicates: for every content of the
tables, every filter and every size of a page, the cursors lead through all rows
that match, each once and in order. -/
theorem cursor_paging_complete [LinearOrder Collated] (std : OtherForms)
    (ilike : String → String → Bool) (inventories : Rows Inventory Inventory.id)
    (transfers : Rows TransferRow TransferRow.id) {size : ℕ} (hsize : 1 ≤ size) :
    (∀ f : TransferFilter,
      YieldsInOrder (searchTransfersCursor std inventories.rows transfers.rows f size)
        (searchedTransfers inventories.rows transfers.rows f)
        fun a b => creationKey b < creationKey a) ∧
    (∀ (searchQuery : String) (invType : Option InventoryType),
      YieldsInOrder (searchInventoriesCursor std ilike inventories.rows searchQuery invType size)
        (searchedInventories ilike inventories.rows searchQuery invType)
        fun a b => nameKey a < nameKey b) ∧
    (∀ ownerId : Option Uuid,
      YieldsInOrder (getWarehousesWithBalancesCursor std inventories.rows ownerId size)
        (listedWarehouses inventories.rows ownerId)
        fun a b => nameKey a < nameKey b) := by
  refine ⟨fun f => ?_, fun searchQuery invType => ?_, fun ownerId => ?_⟩
  · have hsub : (searchedTransfers inventories.rows transfers.rows f).Sublist transfers.rows :=
      List.filter_sublist
    have hquery := transfers.select hsub
    exact follow_descending (.dt std) hquery.1 hquery.2 hsize fun token => rfl
  · have hsub : (searchedInventories ilike inventories.rows searchQuery invType).Sublist
        inventories.rows := List.filter_sublist
    have hquery := inventories.select hsub
    exact follow_ascending (.str std) hquery.1 hquery.2 hsize fun token => rfl
  · have hsub : (listedWarehouses inventories.rows ownerId).Sublist inventories.rows :=
      List.filter_sublist
    have hquery := inventories.select hsub
    exact follow_ascending (.str std) hquery.1 hquery.2 hsize fun token => rfl

/-- Three warehouses of one name. -/
def sampleWarehouses : Rows Inventory Inventory.id where
  rows := [⟨3, none, .warehouse, true, "A"⟩, ⟨1, none, .warehouse, true, "A"⟩,
    ⟨2, none, .warehouse, true, "A"⟩]
  nodup := by decide
  id_lt := by decide

/-- Nothing is read but what is written. -/
def strictForms : OtherForms := ⟨fun _ => none, fun _ => none, fun _ => none⟩

/-- Pages of one row lead through three warehouses of one name. -/
theorem cursor_paging_complete_sample :
    ∃ _ : LinearOrder Collated, YieldsInOrder
      (getWarehousesWithBalancesCursor strictForms sampleWarehouses.rows none 1)
      sampleWarehouses.rows fun a b => nameKey a < nameKey b := by
  let order : LinearOrder Collated := inferInstanceAs (LinearOrder String)
  have hpaging := cursor_paging_complete strictForms (fun _ _ => true) sampleWarehouses
    ⟨[], List.nodup_nil, fun _ h => absurd h List.not_mem_nil⟩ (le_refl 1)
  exact ⟨order, hpaging.2.2 none⟩

end Munavvar.CursorSearch
