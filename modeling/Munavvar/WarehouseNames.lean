import Munavvar.ClientEffects
import Munavvar.CursorSearch
import Munavvar.EventRuns
import Munavvar.Operations

/-!
# The names of warehouses

No two active warehouses are to have the same name. A new warehouse is refused
if an active one has its name. The new name of a warehouse is looked for with the
search for inventories, which finds all names that contain it, and only one row
is fetched. If that row is another name, the name that is taken goes unnoticed.
-/

namespace Munavvar.WarehouseNames

open Munavvar.EventRuns
open Munavvar.Database
open Munavvar.StockLedger
open Munavvar.ClientService
open Munavvar.ClientEffects
open Munavvar.CursorSearch

/-! ## The warehouse service -/

/-- `WarehouseCreate`. -/
structure WarehouseCreate where
  /-- Who is responsible for the warehouse. -/
  userId : Uuid
  /-- Name of the warehouse. -/
  name : String
  /-- The schema admits names of at most 255 characters. -/
  name_length : name.length ≤ 255

/-- `WarehouseUpdate`: a field is not set, or null, or has a value. -/
structure WarehouseUpdate where
  /-- Name of the warehouse. -/
  name : Option (Option String)
  /-- Who is responsible for the warehouse. -/
  userId : Option (Option Uuid)
  /-- The schema admits names of at most 255 characters. -/
  name_length : ∀ n, name = some (some n) → n.length ≤ 255

/-- An active warehouse. -/
def isWarehouse (i : Inventory) : Bool := i.type = .warehouse && i.isActive

/-- `get` of a warehouse. -/
def getWarehouse (id : Uuid) (s : Db) : Option Inventory :=
  (s.directory.inventory? id).filter isWarehouse

/-- `get_by` of the name of a warehouse. -/
def getByName (name : String) (s : Db) : Except Err (Option Inventory) :=
  match s.directory.inventories.filter fun i => i.name = name && isWarehouse i with
  | [] => .ok none
  | [i] => .ok (some i)
  | _ :: _ :: _ => .error .multipleResultsFound

/-- A name that is taken is refused. -/
def checkName (name : String) (existing : Option Inventory) : Except Err Unit :=
  match existing with
  | none => .ok ()
  | some i =>
    .error (.conflict s!"Склад с именем '{name}' уже существует" "INVENTORY_NAME_DUPLICATE"
      [("name", .text name), ("existing_id", .id i.id)])

/-- The inventories of the company. -/
def withInventories (inventories : List Inventory) (s : Db) : Db :=
  { s with directory := { s.directory with inventories := inventories } }

/-- `create_warehouse`. -/
def createWarehouse (env : Env) (schema : WarehouseCreate) (s : Db) : Except Err Db := do
  let existing ← getByName schema.name s
  checkName schema.name existing
  require (s.directory.inventory? (env.uuid 0 0)).isNone (.uniqueViolation "inventories_pkey")
  require (s.users.find? schema.userId).isSome (.foreignKeyViolation "inventories_user_id_fkey")
  .ok (withInventories (s.directory.inventories ++
    [⟨env.uuid 0 0, some schema.userId, .warehouse, true, schema.name⟩]) s)

section Search

variable (ilike : String → String → Bool) (scan : List Inventory → List Inventory)

/-- `search_inventories`: the rows come in the order in which the database finds them. -/
def searchInventories (searchQuery : String) (invType : Option InventoryType) (limit : ℕ) (s : Db) :
    List Inventory :=
  (scan (searchedInventories ilike s.directory.inventories searchQuery invType)).take limit

/-- The row that keeps a warehouse from getting a name. -/
def existingName (newName : String) (s : Db) : Option Inventory :=
  (searchInventories ilike scan newName (some .warehouse) 1 s).head?.filter fun i =>
    i.name = newName

/-- The new name of a warehouse is looked for, unless it is empty or the old one. -/
def checkNewName (warehouse : Inventory) (name : Option (Option String)) (s : Db) :
    Except Err Unit :=
  match name with
  | some (some newName) =>
    if newName ≠ "" ∧ newName ≠ warehouse.name then
      checkName newName (existingName ilike scan newName s)
    else .ok ()
  | _ => .ok ()

/-- The update of a warehouse that is there. -/
def writeWarehouse (id : Uuid) (schema : WarehouseUpdate) (warehouse : Inventory) (s : Db) :
    Except Err Db := do
  checkNewName ilike scan warehouse schema.name s
  let name ← setNotNull "inventories.name" warehouse.name schema.name
  let userId ← setNotNull "inventories.user_id" warehouse.userId
    (schema.userId.map (Option.map some))
  require (schema.userId.all fun u => u.all fun u => (s.users.find? u).isSome)
    (.foreignKeyViolation "inventories_user_id_fkey")
  .ok (withInventories (s.directory.inventories.map fun i =>
    if i.id = id then { i with name, userId } else i) s)

/-- `update_warehouse`: what is no warehouse is not found, and nothing happens. -/
def updateWarehouse (id : Uuid) (schema : WarehouseUpdate) (s : Db) : Except Err Db :=
  match getWarehouse id s with
  | none => .ok s
  | some warehouse =>
    if schema.name.isNone && schema.userId.isNone then .ok s
    else writeWarehouse ilike scan id schema warehouse s

/-- `archive_warehouse`. -/
def archiveWarehouse (id : Uuid) (s : Db) : Except Err Db :=
  match getWarehouse id s with
  | none => .ok s
  | some _ =>
    .ok (withInventories (s.directory.inventories.map fun i =>
      if i.id = id then { i with isActive := false } else i) s)

/-- What is asked of the warehouse service. -/
inductive WarehouseOperation
  | createWarehouse (env : Env) (schema : WarehouseCreate)
  | updateWarehouse (id : Uuid) (schema : WarehouseUpdate)
  | archiveWarehouse (id : Uuid)

/-- A command on the tables. -/
def WarehouseOperation.run : WarehouseOperation → Db → Except Err Db
  | .createWarehouse env schema, s => WarehouseNames.createWarehouse env schema s
  | .updateWarehouse id schema, s => WarehouseNames.updateWarehouse ilike scan id schema s
  | .archiveWarehouse id, s => WarehouseNames.archiveWarehouse id s

/-- The tables after a command. -/
def serve (op : WarehouseOperation) (s : Db) : Db := attempt (op.run ilike scan) s

end Search

/-! ## The rule -/

/-- Inventories have different identifiers, and active warehouses different names. -/
structure Named (inventories : List Inventory) : Prop where
  /-- The identifier is the primary key. -/
  ids : (inventories.map Inventory.id).Nodup
  /-- No two active warehouses have the same name. -/
  names : ∀ i ∈ inventories, ∀ j ∈ inventories, isWarehouse i = true → isWarehouse j = true →
    i.name = j.name → i = j

/-- The lookup of a name meets at most one row. -/
theorem Named.getByName_ne {s : Db} (h : Named s.directory.inventories) (name : String) :
    getByName name s ≠ .error .multipleResultsFound := by
  unfold getByName
  split
  · exact fun h => by cases h
  · exact fun h => by cases h
  · next i j rest htwo =>
    have hmem : ∀ x, x = i ∨ x = j → x ∈ s.directory.inventories ∧ x.name = name ∧
        isWarehouse x = true := by
      intro x hx
      have hx : x ∈ s.directory.inventories.filter fun i => i.name = name && isWarehouse i := by
        rw [htwo]
        rcases hx with rfl | rfl <;> simp
      obtain ⟨hmem, hmatch⟩ := List.mem_filter.mp hx
      simpa [hmem] using hmatch
    obtain ⟨hi, hiname, hiwarehouse⟩ := hmem i (.inl rfl)
    obtain ⟨hj, hjname, hjwarehouse⟩ := hmem j (.inr rfl)
    have hsame := h.names i hi j hj hiwarehouse hjwarehouse (hiname.trans hjname.symm)
    have hnodup := h.ids.of_map.filter fun i => i.name = name && isWarehouse i
    rw [htwo, hsame, List.nodup_cons] at hnodup
    exact absurd List.mem_cons_self hnodup.1

theorem Named.append {inventories : List Inventory} {i : Inventory} (h : Named inventories)
    (hid : i.id ∉ inventories.map Inventory.id)
    (hname : ∀ j ∈ inventories, isWarehouse j = true → j.name ≠ i.name) :
    Named (inventories ++ [i]) := by
  constructor
  · rw [List.map_append, List.nodup_append]
    refine ⟨h.ids, List.nodup_singleton _, ?_⟩
    intro a ha b hb hab
    rw [List.map_singleton, List.mem_singleton] at hb
    rw [hab, hb] at ha
    exact hid ha
  · intro a ha b hb hawarehouse hbwarehouse hsame
    rw [List.mem_append, List.mem_singleton] at ha hb
    rcases ha with ha | rfl <;> rcases hb with hb | rfl
    · exact h.names a ha b hb hawarehouse hbwarehouse hsame
    · exact absurd hsame (hname a ha hawarehouse)
    · exact absurd hsame.symm (hname b hb hbwarehouse)
    · rfl

/-- One inventory changes, and if it is an active warehouse then with a name
that no other one has. -/
theorem Named.change {inventories : List Inventory} {id : Uuid} {f : Inventory → Inventory}
    (h : Named inventories) (hid : ∀ i, (f i).id = i.id)
    (hname : ∀ i ∈ inventories, i.id = id → isWarehouse (f i) = true →
      ∀ j ∈ inventories, j.id ≠ id → isWarehouse j = true → (f i).name ≠ j.name) :
    Named (inventories.map fun i => if i.id = id then f i else i) := by
  have hsameId : ∀ i : Inventory, (if i.id = id then f i else i).id = i.id := by
    intro i
    split
    · exact hid i
    · rfl
  constructor
  · rw [List.map_map]
    have hids : (Inventory.id ∘ fun i : Inventory => if i.id = id then f i else i) =
        Inventory.id := funext hsameId
    rw [hids]
    exact h.ids
  · intro a ha b hb hawarehouse hbwarehouse hsame
    obtain ⟨i, hi, rfl⟩ := List.mem_map.mp ha
    obtain ⟨j, hj, rfl⟩ := List.mem_map.mp hb
    by_cases hiid : i.id = id <;> by_cases hjid : j.id = id
    · rw [List.inj_on_of_nodup_map h.ids hi hj (hiid.trans hjid.symm)]
    · rw [if_pos hiid] at hawarehouse hsame
      rw [if_neg hjid] at hbwarehouse hsame
      exact absurd hsame (hname i hi hiid hawarehouse j hj hjid hbwarehouse)
    · rw [if_neg hiid] at hawarehouse hsame
      rw [if_pos hjid] at hbwarehouse hsame
      exact absurd hsame.symm (hname j hj hjid hbwarehouse i hi hiid hawarehouse)
    · rw [if_neg hiid] at hawarehouse hsame ⊢
      rw [if_neg hjid] at hbwarehouse hsame ⊢
      exact h.names i hi j hj hawarehouse hbwarehouse hsame

/-! ## Commands -/

section Commands

variable {s s' : Db}

/-- The warehouse that is found is in the list. -/
theorem getWarehouse_spec {id : Uuid} {i : Inventory} (h : getWarehouse id s = some i) :
    i ∈ s.directory.inventories ∧ i.id = id ∧ isWarehouse i = true := by
  obtain ⟨hfind, hwarehouse⟩ := Option.filter_eq_some_iff.mp h
  have hid : i.id = id := by simpa using List.find?_some hfind
  exact ⟨List.mem_of_find?_eq_some hfind, hid, hwarehouse⟩

theorem createWarehouse_named {env : Env} {schema : WarehouseCreate}
    (hs : Named s.directory.inventories) (h : createWarehouse env schema s = .ok s') :
    Named s'.directory.inventories := by
  simp only [createWarehouse, bind_eq_ok, require_eq_ok] at h
  obtain ⟨existing, hexisting, _, hcheck, _, hfresh, -, -, h⟩ := h
  cases h
  have hnone : existing = none := by
    unfold checkName at hcheck
    split at hcheck
    · rfl
    · cases hcheck
  refine hs.append (fun hmem => ?_) fun j hj hwarehouse hname => ?_
  · obtain ⟨j, hj, hid⟩ := List.mem_map.mp hmem
    have hfresh := List.find?_eq_none.mp (Option.isNone_iff_eq_none.mp hfresh) j hj
    simp [hid] at hfresh
  · have hmem : j ∈ s.directory.inventories.filter fun i =>
        i.name = schema.name && isWarehouse i := by
      refine List.mem_filter.mpr ⟨hj, ?_⟩
      simp [hname, hwarehouse]
    unfold getByName at hexisting
    split at hexisting
    · next hnil =>
      rw [hnil] at hmem
      cases hmem
    · rw [hnone] at hexisting
      cases hexisting
    · cases hexisting

theorem archiveWarehouse_named {id : Uuid} (hs : Named s.directory.inventories)
    (h : archiveWarehouse id s = .ok s') : Named s'.directory.inventories := by
  unfold archiveWarehouse at h
  split at h
  · cases h
    exact hs
  · cases h
    have hnot : ∀ i : Inventory, isWarehouse { i with isActive := false } = false := by
      intro i
      simp [isWarehouse]
    refine hs.change (f := fun i => { i with isActive := false }) (fun _ => rfl)
      fun i _ _ hi => ?_
    rw [hnot] at hi
    cases hi

end Commands

section Search

variable {ilike : String → String → Bool} {scan : List Inventory → List Inventory}

/-- Another active warehouse has this name. -/
def isTaken (id : Uuid) (name : String) (s : Db) : Bool :=
  s.directory.inventories.any fun j => j.id ≠ id && isWarehouse j && j.name = name

/-- A warehouse is not given the name of another active one unless it is not
empty and the one row that the search fetches has it. -/
def WarehouseOperation.meets (ilike : String → String → Bool)
    (scan : List Inventory → List Inventory) : WarehouseOperation → Db → Bool
  | .updateWarehouse id schema, s =>
    (getWarehouse id s).all fun _ => schema.name.all fun name => name.all fun newName =>
      !isTaken id newName s || newName ≠ "" && (existingName ilike scan newName s).isSome
  | _, _ => true

theorem not_taken {id : Uuid} {name : String} {s : Db} (h : isTaken id name s = false) :
    ∀ j ∈ s.directory.inventories, j.id ≠ id → isWarehouse j = true → name ≠ j.name := by
  intro j hj hid hwarehouse hname
  have htaken : isTaken id name s = true := by
    refine List.any_eq_true.mpr ⟨j, hj, ?_⟩
    simp [hid, hwarehouse, hname]
  rw [h] at htaken
  cases htaken

/-- A name that passes the check is not taken. -/
theorem checkNewName_free {id : Uuid} {schema : WarehouseUpdate} {warehouse : Inventory} {s : Db}
    {name : String} {u : Unit} (hs : Named s.directory.inventories)
    (hget : getWarehouse id s = some warehouse)
    (hmeets : (WarehouseOperation.updateWarehouse id schema).meets ilike scan s = true)
    (hname : (schema.name.getD (some warehouse.name)).getD warehouse.name = name)
    (hcheck : checkNewName ilike scan warehouse schema.name s = .ok u) :
    ∀ j ∈ s.directory.inventories, j.id ≠ id → isWarehouse j = true → name ≠ j.name := by
  obtain ⟨hmem, hid, hwarehouse⟩ := getWarehouse_spec hget
  -- the warehouse's own name is no other's
  have hown : name = warehouse.name →
      ∀ j ∈ s.directory.inventories, j.id ≠ id → isWarehouse j = true → name ≠ j.name := by
    intro hsame j hj hne hjwarehouse hjname
    have hj := hs.names j hj warehouse hmem hjwarehouse hwarehouse (hjname.symm.trans hsame)
    exact hne (hj ▸ hid)
  match hset : schema.name with
  | none =>
    rw [hset] at hname
    exact hown hname.symm
  | some none =>
    rw [hset] at hname
    exact hown hname.symm
  | some (some newName) =>
    rw [hset] at hname hcheck
    have hname : newName = name := hname
    subst hname
    simp only [WarehouseOperation.meets, hget, hset, Option.all_some, Bool.or_eq_true] at hmeets
    rcases hmeets with hfree | hfound
    · have hfree : isTaken id newName s = false := by simpa using hfree
      exact not_taken hfree
    · rw [Bool.and_eq_true, decide_eq_true_eq] at hfound
      by_cases hsame : newName = warehouse.name
      · exact hown hsame
      · obtain ⟨i, hi⟩ := Option.isSome_iff_exists.mp hfound.2
        simp only [checkNewName, if_pos (And.intro hfound.1 hsame), checkName, hi] at hcheck
        cases hcheck

theorem updateWarehouse_named {id : Uuid} {schema : WarehouseUpdate} {s s' : Db}
    (hs : Named s.directory.inventories)
    (hmeets : (WarehouseOperation.updateWarehouse id schema).meets ilike scan s = true)
    (h : updateWarehouse ilike scan id schema s = .ok s') : Named s'.directory.inventories := by
  unfold updateWarehouse at h
  split at h
  · cases h
    exact hs
  · next warehouse hget =>
    split at h
    · cases h
      exact hs
    · simp only [writeWarehouse, bind_eq_ok] at h
      obtain ⟨u, hcheck, name, hname, userId, -, -, -, h⟩ := h
      cases h
      have hfree := checkNewName_free hs hget hmeets (setNotNull_ok hname) hcheck
      exact hs.change (f := fun i => { i with name, userId }) (fun _ => rfl)
        fun _ _ _ _ => hfree

/-- A command that meets the condition keeps the names different. -/
theorem serve_named {op : WarehouseOperation} {s : Db} (hmeets : op.meets ilike scan s = true)
    (hs : Named s.directory.inventories) :
    Named (serve ilike scan op s).directory.inventories := by
  refine attempt_keeps (I := fun s : Db => Named s.directory.inventories) hs fun s' h => ?_
  cases op with
  | createWarehouse env schema => exact createWarehouse_named hs h
  | updateWarehouse id schema => exact updateWarehouse_named hs hmeets h
  | archiveWarehouse id => exact archiveWarehouse_named hs h

end Search

/-! ## Runs -/

/-- In every run in which no warehouse is given the name of another active one
behind the back of the search, active warehouses have different names, and the
lookup by name meets at most one of them. -/
theorem warehouse_names_unique (ilike : String → String → Bool)
    (scan : List Inventory → List Inventory) {s : Db} (hs : Named s.directory.inventories)
    (ops : List WarehouseOperation)
    (hmeets : Each (serve ilike scan) (fun op s => op.meets ilike scan s = true) ops s) :
    Named (serveEach (serve ilike scan) ops s).directory.inventories ∧
      ∀ name, getByName name (serveEach (serve ilike scan) ops s) ≠
        .error .multipleResultsFound := by
  have hnamed := hmeets.invariant (I := fun s : Db => Named s.directory.inventories) hs
    fun _ _ hmeets hs => serve_named hmeets hs
  exact ⟨hnamed, hnamed.getByName_ne⟩

theorem sampleDb_named : Named Operations.sampleDb.directory.inventories where
  ids := by decide
  names := by decide

/-- The names that contain a certain text, as the search for it finds them. -/
def ilikeNorth (name _pattern : String) : Bool :=
  name.toList.tails.any fun rest => "North".toList.isPrefixOf rest

/-- A warehouse of a user is created. -/
def created (id : Uuid) (name : String) (h : name.length ≤ 255) : WarehouseOperation :=
  .createWarehouse ⟨0, fun _ _ => id⟩ ⟨6, name, h⟩

/-- A warehouse is renamed. -/
def renamed (id : Uuid) (name : String) (h : name.length ≤ 255) : WarehouseOperation :=
  .updateWarehouse id ⟨some (some name), none, by
    rintro _ ⟨⟩
    exact h⟩

/-- The name is found first, so it is refused, until its warehouse is archived. -/
def inOrder : List WarehouseOperation :=
  [created 51 "North" (by decide), created 52 "North-2" (by decide), renamed 3 "North" (by decide),
    .archiveWarehouse 51, renamed 3 "North" (by decide)]

theorem warehouse_names_unique_sample :
    ((serveEach (serve ilikeNorth fun l => l) inOrder
        Operations.sampleDb).directory.inventories.filter isWarehouse).map Inventory.name =
        ["North", "North-2"] ∧
      Named (serveEach (serve ilikeNorth fun l => l) inOrder
        Operations.sampleDb).directory.inventories ∧
      ∀ name, getByName name (serveEach (serve ilikeNorth fun l => l) inOrder
        Operations.sampleDb) ≠ .error .multipleResultsFound :=
  ⟨by decide +kernel,
    warehouse_names_unique ilikeNorth (fun l => l) sampleDb_named inOrder (by decide +kernel)⟩

/-- The search for the name fetches a longer one. -/
def outOfOrder : List WarehouseOperation :=
  [created 52 "North-2" (by decide), created 51 "North" (by decide), renamed 3 "North" (by decide)]

/-- Two warehouses get the same name, and then the lookup by name fails. -/
theorem warehouse_name_twice :
    ¬ ∀ (ilike : String → String → Bool) (scan : List Inventory → List Inventory) (s : Db)
      (ops : List WarehouseOperation), Named s.directory.inventories →
      Named (serveEach (serve ilike scan) ops s).directory.inventories ∧
        ∀ name, getByName name (serveEach (serve ilike scan) ops s) ≠
          .error .multipleResultsFound := by
  intro hclaim
  obtain ⟨-, hlookup⟩ :=
    hclaim ilikeNorth (fun l => l) Operations.sampleDb outOfOrder sampleDb_named
  have hfails : getByName "North" (serveEach (serve ilikeNorth fun l => l) outOfOrder
      Operations.sampleDb) = .error .multipleResultsFound := by decide +kernel
  exact hlookup "North" hfails

end Munavvar.WarehouseNames
