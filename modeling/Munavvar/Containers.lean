import Munavvar.Catalog
import Munavvar.ClientEffects
import Munavvar.EventRuns
import Munavvar.Operations

/-!
# Water and its containers

Water is sold in a returnable container. A water product is created and restored
only with an active container, and no other product has one. An update may write
any type and any container, and a container may be archived while water is sold
in it; neither looks at the other product.
-/

namespace Munavvar.Containers

open Munavvar.KeyedTable
open Munavvar.Transaction
open Munavvar.Transaction.Prog
open Munavvar.EventRuns
open Munavvar.Database
open Munavvar.StockLedger
open Munavvar.ClientService
open Munavvar.ClientEffects
open Munavvar.Catalog

/-! ## The catalog service -/

/-- `ProductCreate`; the attributes are not read. -/
structure ProductCreate where
  /-- Category of the product. -/
  type : ProductType
  /-- Name of the product. -/
  name : String
  /-- Base price of one piece. -/
  price : ℤ
  /-- The container of water. -/
  returnableItemId : Option Uuid
  /-- The schema admits names of 1 to 255 characters. -/
  name_length : 1 ≤ name.length ∧ name.length ≤ 255
  /-- `ge=0`. -/
  price_nonneg : 0 ≤ price

/-- `ProductUpdate`: a field is not set, or null, or has a value. -/
structure ProductUpdate where
  /-- Name of the product. -/
  name : Option (Option String)
  /-- Category of the product. -/
  type : Option (Option ProductType)
  /-- Base price of one piece. -/
  price : Option (Option ℤ)
  /-- Labels and values; those of a product are not kept here. -/
  attributes : Option (Option (List (String × String)))
  /-- The container of water. -/
  returnableItemId : Option (Option Uuid)
  /-- The schema admits names of 1 to 255 characters. -/
  name_length : ∀ n, name = some (some n) → 1 ≤ n.length ∧ n.length ≤ 255
  /-- `ge=0`. -/
  price_nonneg : ∀ p, price = some (some p) → 0 ≤ p

/-- `get` of an active product. -/
def getProduct (id : Uuid) (s : Db) : Option Product := (s.products.find? id).filter Product.isActive

/-- `get` of a product that may be archived. -/
def requireProduct (id : Uuid) (s : Db) : Except Err Product :=
  match s.products.find? id with
  | some product => .ok product
  | none => .error (.productNotFound id)

/-- The container of a new product is an active one. -/
def checkBottle (returnableItemId : Option Uuid) (s : Db) : Except Err Unit :=
  match returnableItemId with
  | none => .ok ()
  | some id =>
    match getProduct id s with
    | none =>
      .error (.notFound "Указанная возвратная тара не найдена" "PRODUCT_NOT_FOUND"
        [("product_id", .id id)])
    | some bottle =>
      require (bottle.type = .container) (.invalidReturnableItem
        "В качестве возвратной тары можно указать только товар типа CONTAINER")

/-- `add_product`. -/
def addProduct (env : Env) (dto : ProductCreate) (s : Db) : Except Err Db := do
  require (¬ (dto.returnableItemId.isSome ∧ dto.type ≠ .water)) (.invalidReturnableItem
    "Возвратная тара может быть привязана только к товарам типа WATER")
  require (¬ (dto.type = .water ∧ dto.returnableItemId.isNone)) (.invalidReturnableItem
    "Товар типа WATER не может быть создан без привязки к возвратной таре (CONTAINER)")
  checkBottle dto.returnableItemId s
  require (int64 dto.price) (.outOfRange "products.price")
  require (s.products.find? (env.uuid 0 0)).isNone (.uniqueViolation "products_pkey")
  let product : Product := ⟨dto.type, dto.name, dto.price, dto.returnableItemId, true⟩
  .ok { s with products := s.products.put (env.uuid 0 0) (some product) }

/-- The update of a product that is there. -/
def writeProduct (id : Uuid) (schema : ProductUpdate) (product : Product) (s : Db) :
    Except Err Db := do
  let name ← setNotNull "products.name" product.name schema.name
  let type ← setNotNull "products.type" product.type schema.type
  let price ← setNotNull "products.price" product.price schema.price
  require (int64 price) (.outOfRange "products.price")
  require (schema.attributes ≠ some none) (.checkViolation "ck_product_attributes_is_array")
  let item := schema.returnableItemId.getD product.returnableItemId
  require (item.all fun i => (s.products.find? i).isSome)
    (.foreignKeyViolation "products_returnable_item_id_fkey")
  let product : Product := ⟨type, name, price, item, product.isActive⟩
  .ok { s with products := s.products.put id (some product) }

/-- Nothing is set. -/
def ProductUpdate.isEmpty (schema : ProductUpdate) : Bool :=
  schema.name.isNone && schema.type.isNone && schema.price.isNone && schema.attributes.isNone &&
    schema.returnableItemId.isNone

/-- `update`, which the catalog inherits. -/
def update (id : Uuid) (schema : ProductUpdate) (s : Db) : Except Err Db :=
  if schema.isEmpty then .ok s
  else
    match s.products.find? id with
    | none => .error (.recordNotFound "Product" id)
    | some product => writeProduct id schema product s

/-- `archive`. -/
def archive (id : Uuid) (s : Db) : Except Err Db := do
  let product ← requireProduct id s
  .ok { s with products := s.products.put id (some { product with isActive := false }) }

/-- The container of a product that is restored is active. -/
def checkContainer (returnableItemId : Option Uuid) (s : Db) : Except Err Unit :=
  require (returnableItemId.all fun i => (getProduct i s).isSome) (.invalidReturnableItem
    "Невозможно восстановить товар: привязанная тара архивирована или не найдена")

/-- `restore`. -/
def restore (id : Uuid) (s : Db) : Except Err Db := do
  let product ← requireProduct id s
  checkContainer product.returnableItemId s
  .ok { s with products := s.products.put id (some { product with isActive := true }) }

/-- What is asked of the catalog. -/
inductive CatalogOperation
  | addProduct (env : Env) (dto : ProductCreate)
  | update (id : Uuid) (schema : ProductUpdate)
  | archive (id : Uuid)
  | restore (id : Uuid)
  | hardDelete (id : Uuid)

/-- A command on the tables. -/
def CatalogOperation.run : CatalogOperation → Db → Except Err Db
  | .addProduct env dto, s => Containers.addProduct env dto s
  | .update id schema, s => Containers.update id schema s
  | .archive id, s => Containers.archive id s
  | .restore id, s => Containers.restore id s
  | .hardDelete id, s => ((Catalog.hardDelete id).run s).map Prod.snd

/-- The tables after a command. -/
def serve (op : CatalogOperation) (s : Db) : Db := attempt op.run s

/-! ## The rule -/

/-- An active container. -/
def IsContainer (t : Table Uuid Product) (id : Uuid) : Prop :=
  ∃ q, t.find? id = some q ∧ q.isActive = true ∧ q.type = .container

/-- Active water has an active container, and no other product has one. -/
structure Paired (t : Table Uuid Product) : Prop where
  /-- Water. -/
  water : ∀ id p, t.find? id = some p → p.isActive = true → p.type = .water →
    ∃ c, p.returnableItemId = some c ∧ IsContainer t c
  /-- Other products. -/
  other : ∀ id p, t.find? id = some p → p.type ≠ .water → p.returnableItemId = none

/-- Active water is sold in this container. -/
def sellsIn (s : Db) (id : Uuid) : Bool :=
  s.products.rows.any fun r =>
    r.2.isActive && r.2.type = .water && r.2.returnableItemId = some id

/-- A product is an active container of the catalog. -/
def isContainer (s : Db) (id : Uuid) : Bool :=
  (s.products.find? id).any fun q => q.isActive && q.type = .container

/-- What an update makes of a product fits the other products: water that is
active gets a container, other products get none, and a container in which water
is sold stays one. -/
def suits (s : Db) (id : Uuid) (product : Product) (type : ProductType) (item : Option Uuid) :
    Bool :=
  (if type = .water then !product.isActive || item.any fun c => c ≠ id && isContainer s c
    else item.isNone) &&
  (type = .container || !sellsIn s id)

/-- Updates fit, no container in which water is sold is archived, and no water
is restored whose container is missing or none. -/
def CatalogOperation.meets : CatalogOperation → Db → Bool
  | .update id schema, s =>
    (s.products.find? id).all fun p => schema.isEmpty ||
      suits s id p ((schema.type.getD (some p.type)).getD p.type)
        (schema.returnableItemId.getD p.returnableItemId)
  | .archive id, s => !sellsIn s id
  | .restore id, s =>
    (s.products.find? id).all fun p => p.type ≠ .water || p.returnableItemId.any (isContainer s)
  | _, _ => true

/-! ## Commands -/

theorem sellsIn_iff (s : Db) (id : Uuid) :
    sellsIn s id = true ↔ ∃ j p, s.products.find? j = some p ∧ p.isActive = true ∧
      p.type = .water ∧ p.returnableItemId = some id := by
  rw [sellsIn, List.any_eq_true]
  constructor
  · rintro ⟨⟨j, p⟩, hmem, hp⟩
    simp only [Bool.and_eq_true, decide_eq_true_eq] at hp
    exact ⟨j, p, (s.products.mem_rows_iff j p).mp hmem, hp.1.1, hp.1.2, hp.2⟩
  · rintro ⟨j, p, hfind, hactive, htype, hitem⟩
    refine ⟨(j, p), (s.products.mem_rows_iff j p).mpr hfind, ?_⟩
    simp [hactive, htype, hitem]

theorem isContainer_iff (s : Db) (id : Uuid) :
    isContainer s id = true ↔ IsContainer s.products id := by
  rw [isContainer, Option.any_eq_true]
  simp only [IsContainer, Bool.and_eq_true, decide_eq_true_eq]

/-- A container can be changed if no water is sold in it. -/
theorem not_sold {s : Db} {id : Uuid} (h : sellsIn s id = false) :
    ∀ j p, s.products.find? j = some p → p.isActive = true → p.type = .water →
      p.returnableItemId ≠ some id := by
  intro j p hfind hactive htype hitem
  have hsells := (sellsIn_iff s id).mpr ⟨j, p, hfind, hactive, htype, hitem⟩
  rw [h] at hsells
  cases hsells

section Table

variable {t : Table Uuid Product} {id : Uuid}

theorem IsContainer.put_ne {c : Uuid} (h : IsContainer t c) (hne : c ≠ id) (o : Option Product) :
    IsContainer (t.put id o) c := by
  rw [IsContainer, Table.find?_put_ne _ hne]
  exact h

/-- Products stay paired if the one that is written is, and if it remains a
container in case it is one that water is sold in. -/
theorem Paired.put {p : Product} (h : Paired t)
    (hwater : p.isActive = true → p.type = .water →
      ∃ c, p.returnableItemId = some c ∧ c ≠ id ∧ IsContainer t c)
    (hother : p.type ≠ .water → p.returnableItemId = none)
    (hkeeps : p.isActive = true ∧ p.type = .container ∨
      ∀ j q, j ≠ id → t.find? j = some q → q.isActive = true → q.type = .water →
        q.returnableItemId ≠ some id) : Paired (t.put id (some p)) := by
  constructor
  · intro j q hj hactive htype
    by_cases hid : j = id
    · subst hid
      rw [Table.find?_put_self] at hj
      cases hj
      obtain ⟨c, hitem, hne, hc⟩ := hwater hactive htype
      exact ⟨c, hitem, hc.put_ne hne _⟩
    · rw [Table.find?_put_ne _ hid] at hj
      obtain ⟨c, hitem, hc⟩ := h.water j q hj hactive htype
      refine ⟨c, hitem, ?_⟩
      by_cases hsame : c = id
      · subst hsame
        rcases hkeeps with hcontainer | hnone
        · exact ⟨p, Table.find?_put_self _ _ _, hcontainer⟩
        · exact absurd hitem (hnone j q hid hj hactive htype)
      · exact hc.put_ne hsame _
  · intro j q hj htype
    by_cases hid : j = id
    · subst hid
      rw [Table.find?_put_self] at hj
      cases hj
      exact hother htype
    · rw [Table.find?_put_ne _ hid] at hj
      exact h.other j q hj htype

/-- Products stay paired if one is deleted that is nobody's container. -/
theorem Paired.delete (h : Paired t)
    (hnone : ∀ j q, t.find? j = some q → q.returnableItemId ≠ some id) :
    Paired (t.put id none) := by
  have hfind : ∀ j q, (t.put id none).find? j = some q → t.find? j = some q := by
    intro j q hj
    rw [Table.find?_put] at hj
    split at hj
    · cases hj
    · exact hj
  constructor
  · intro j q hj hactive htype
    have hj := hfind j q hj
    obtain ⟨c, hitem, hc⟩ := h.water j q hj hactive htype
    refine ⟨c, hitem, hc.put_ne (fun hsame => ?_) _⟩
    exact hnone j q hj (hsame ▸ hitem)
  · intro j q hj htype
    exact h.other j q (hfind j q hj) htype

/-- Who sells water in a product sells it in a container. -/
theorem Paired.container_of_sold (h : Paired t) {j : Uuid} {q : Product} (hj : t.find? j = some q)
    (hactive : q.isActive = true) (htype : q.type = .water)
    (hitem : q.returnableItemId = some id) : IsContainer t id := by
  obtain ⟨c, hc, hcontainer⟩ := h.water j q hj hactive htype
  cases hitem.symm.trans hc
  exact hcontainer

end Table

theorem requireProduct_ok {id : Uuid} {s : Db} {p : Product} (h : requireProduct id s = .ok p) :
    s.products.find? id = some p := by
  unfold requireProduct at h
  split at h
  · next hfind =>
    cases h
    exact hfind
  · cases h

/-- The container of a new product is one. -/
theorem checkBottle_ok {item : Option Uuid} {s : Db} {u : Unit} (h : checkBottle item s = .ok u)
    {c : Uuid} (hc : item = some c) : IsContainer s.products c := by
  subst hc
  unfold checkBottle at h
  dsimp only at h
  split at h
  · cases h
  · next bottle hbottle =>
    rw [require_eq_ok, decide_eq_true_eq] at h
    obtain ⟨hfind, hactive⟩ := Option.filter_eq_some_iff.mp hbottle
    exact ⟨bottle, hfind, hactive, h⟩

section Commands

variable {s s' : Db}

theorem addProduct_paired {env : Env} {dto : ProductCreate} (hs : Paired s.products)
    (h : addProduct env dto s = .ok s') : Paired s'.products := by
  simp only [addProduct, bind_eq_ok, require_eq_ok, decide_eq_true_eq] at h
  obtain ⟨-, hother, -, hwater, u, hbottle, -, -, -, hfresh, h⟩ := h
  cases h
  have hfresh : s.products.find? (env.uuid 0 0) = none := Option.isNone_iff_eq_none.mp hfresh
  have hne : ∀ c, IsContainer s.products c → c ≠ env.uuid 0 0 := by
    rintro c ⟨q, hq, -⟩ hsame
    rw [hsame, hfresh] at hq
    cases hq
  refine hs.put (fun _ htype => ?_) (fun htype => ?_) (.inr ?_)
  · cases hitem : dto.returnableItemId with
    | none => exact absurd ⟨htype, by rw [hitem]; rfl⟩ hwater
    | some c =>
      have hc := checkBottle_ok hbottle hitem
      exact ⟨c, rfl, hne c hc, hc⟩
  · cases hitem : dto.returnableItemId with
    | none => rfl
    | some c => exact absurd ⟨by rw [hitem]; rfl, htype⟩ hother
  · intro j q _ hj hactive htype hitem
    exact hne _ (hs.container_of_sold hj hactive htype hitem) rfl

theorem update_paired {id : Uuid} {schema : ProductUpdate} (hs : Paired s.products)
    (hmeets : (CatalogOperation.update id schema).meets s = true)
    (h : update id schema s = .ok s') : Paired s'.products := by
  unfold update at h
  split at h
  · cases h
    exact hs
  · next hempty =>
    split at h
    · cases h
    · next product hfind =>
      simp only [writeProduct, bind_eq_ok] at h
      obtain ⟨name, -, type, htype, price, -, -, -, -, -, -, -, h⟩ := h
      cases h
      have htype := setNotNull_ok htype
      simp only [CatalogOperation.meets, hfind, Option.all_some, hempty, Bool.false_or, htype,
        suits, Bool.and_eq_true] at hmeets
      obtain ⟨hpair, hkeeps⟩ := hmeets
      refine hs.put (fun hactive hwater => ?_) (fun hother => ?_) ?_
      · rw [if_pos hwater, Bool.or_eq_true, Option.any_eq_true] at hpair
        rcases hpair with harchived | ⟨c, hitem, hc⟩
        · have hactive : product.isActive = true := hactive
          simp [hactive] at harchived
        · rw [Bool.and_eq_true, decide_eq_true_eq] at hc
          exact ⟨c, hitem, hc.1, (isContainer_iff s c).mp hc.2⟩
      · rw [if_neg hother] at hpair
        exact Option.isNone_iff_eq_none.mp hpair
      · by_cases hactive : product.isActive = true
        · rw [Bool.or_eq_true, decide_eq_true_eq] at hkeeps
          rcases hkeeps with hcontainer | hnone
          · exact .inl ⟨hactive, hcontainer⟩
          · have hnone : sellsIn s id = false := by simpa using hnone
            exact .inr fun j q _ => not_sold hnone j q
        · refine .inr fun j q _ hj hwater hsold hitem => ?_
          obtain ⟨c, hc, hcontainer, -⟩ := hs.container_of_sold hj hwater hsold hitem
          cases hfind.symm.trans hc
          exact hactive hcontainer

theorem archive_paired {id : Uuid} (hs : Paired s.products)
    (hmeets : (CatalogOperation.archive id).meets s = true) (h : archive id s = .ok s') :
    Paired s'.products := by
  obtain ⟨product, hproduct, h⟩ := bind_eq_ok.mp h
  cases h
  have hfind := requireProduct_ok hproduct
  have hnone : sellsIn s id = false := by simpa [CatalogOperation.meets] using hmeets
  refine hs.put (fun hactive => ?_) (hs.other id product hfind) (.inr ?_)
  · cases hactive
  · exact fun j q _ => not_sold hnone j q

theorem restore_paired {id : Uuid} (hs : Paired s.products)
    (hmeets : (CatalogOperation.restore id).meets s = true) (h : restore id s = .ok s') :
    Paired s'.products := by
  obtain ⟨product, hproduct, h⟩ := bind_eq_ok.mp h
  obtain ⟨-, -, h⟩ := bind_eq_ok.mp h
  cases h
  have hfind := requireProduct_ok hproduct
  have hmeets : product.type ≠ .water ∨ product.returnableItemId.any (isContainer s) = true := by
    simpa [CatalogOperation.meets, hfind] using hmeets
  refine hs.put (fun _ hwater => ?_) (hs.other id product hfind) ?_
  · have hwater : product.type = .water := hwater
    rcases hmeets with hother | hitem
    · exact absurd hwater hother
    · obtain ⟨c, hitem, hc⟩ := (Option.any_eq_true _ _).mp hitem
      have hc := (isContainer_iff s c).mp hc
      refine ⟨c, hitem, fun hsame => ?_, hc⟩
      obtain ⟨q, hq, -, htype⟩ := hc
      rw [hsame, hfind] at hq
      cases hq
      cases htype.symm.trans hwater
  · by_cases htype : product.type = .container
    · exact .inl ⟨rfl, htype⟩
    · refine .inr fun j q _ hj hactive hwater hitem => ?_
      obtain ⟨c, hc, -, hcontainer⟩ := hs.container_of_sold hj hactive hwater hitem
      cases hfind.symm.trans hc
      exact htype hcontainer

/-- What is deleted is nobody's container. -/
theorem hardDelete_paired {id : Uuid} {u : Unit} (hs : Paired s.products)
    (h : (hardDelete id).run s = .ok (u, s')) : Paired s'.products := by
  have hwp : wp Regime.serial (hardDelete id)
      (fun _ s' => hasAssociatedProducts id s = false ∧ s'.products = s.products.put id none)
      (fun _ => True) s := by
    rw [hardDelete, wp_bind, wp_ask]
    rintro _ rfl
    rw [wp_bind, wp_raiseIf]
    refine ⟨fun _ => trivial, fun _ => ?_⟩
    rw [wp_bind, wp_ask]
    rintro _ rfl
    rw [wp_bind, wp_raiseIf]
    refine ⟨fun _ => trivial, fun _ => ?_⟩
    rw [wp_bind, wp_ask]
    rintro _ rfl
    rw [wp_bind, wp_raiseIf]
    refine ⟨fun _ => trivial, fun hfree => ?_⟩
    rw [wp_bind]
    refine wp_execute_of trivial (fun row _ hexec => ?_) fun _ _ => trivial
    cases hexec
    rw [wp_bind, wp_ask]
    rintro _ rfl
    rw [wp_whenSome]
    refine ⟨fun v _ => ?_, fun _ => ?_⟩
    · rw [wp_raise]
      trivial
    · exact ⟨by simpa using hfree, rfl⟩
  obtain ⟨hfree, hproducts⟩ := wp_serial_run hwp h
  rw [hproducts]
  refine hs.delete fun j q hj hitem => ?_
  have hassociated : hasAssociatedProducts id s = true := by
    refine List.any_eq_true.mpr ⟨(j, q), (s.products.mem_rows_iff j q).mpr hj, ?_⟩
    simp [hitem]
  rw [hfree] at hassociated
  cases hassociated

/-- A command that meets the condition keeps the products paired. -/
theorem run_paired {op : CatalogOperation} (hmeets : op.meets s = true) (hs : Paired s.products)
    (h : op.run s = .ok s') : Paired s'.products := by
  cases op with
  | addProduct env dto => exact addProduct_paired hs h
  | update id schema => exact update_paired hs hmeets h
  | archive id => exact archive_paired hs hmeets h
  | restore id => exact restore_paired hs hmeets h
  | hardDelete id =>
    cases hrun : (hardDelete id).run s with
    | error e =>
      rw [CatalogOperation.run, hrun] at h
      cases h
    | ok x =>
      rw [CatalogOperation.run, hrun] at h
      cases h
      exact hardDelete_paired hs hrun

end Commands

/-! ## Runs -/

/-- In every run whose updates suit the other products, in which no container of
active water is archived and no water without a container is restored, active
water always has its container and other products have none. -/
theorem water_has_container {s : Db} (hs : Paired s.products) (ops : List CatalogOperation)
    (hmeets : Each serve (fun op s => op.meets s = true) ops s) :
    Paired (serveEach serve ops s).products := by
  refine hmeets.invariant (I := fun s : Db => Paired s.products) hs fun op s hmeets hs => ?_
  exact attempt_keeps (I := fun s : Db => Paired s.products) hs fun s' h => run_paired hmeets hs h

theorem sampleDb_paired : Paired Operations.sampleDb.products where
  water id p hp hactive htype := by
    have hall : ∀ r ∈ Operations.sampleDb.products.rows, r.2.isActive = true → r.2.type = .water →
        r.2.returnableItemId = some 22 := by decide
    have hitem := hall (id, p) ((Table.mem_rows_iff _ id p).mpr hp) hactive htype
    exact ⟨22, hitem, ⟨.container, "bottle", 50, none, true⟩, rfl, rfl, rfl⟩
  other id p hp htype := by
    have hall : ∀ r ∈ Operations.sampleDb.products.rows, r.2.type ≠ .water →
        r.2.returnableItemId = none := by decide
    exact hall (id, p) ((Table.mem_rows_iff _ id p).mpr hp) htype

/-- A jug is added, the water is sold in it, and the bottle is archived and restored. -/
def rebottled : List CatalogOperation :=
  [.addProduct ⟨0, fun _ _ => 41⟩ ⟨.container, "jug", 60, none, by decide, by decide⟩,
    .update 21 ⟨none, none, some (some 110), none, some (some 41), by simp, by simp⟩,
    .archive 22, .restore 22, .hardDelete 23]

theorem water_has_container_sample :
    ((serveEach serve rebottled Operations.sampleDb).products.find? 21).map
        Product.returnableItemId = some (some 41) ∧
      Paired (serveEach serve rebottled Operations.sampleDb).products :=
  ⟨by decide +kernel, water_has_container sampleDb_paired rebottled (by decide +kernel)⟩

/-- The container of the water is taken away. -/
def unbottled : List CatalogOperation :=
  [.update 21 ⟨none, none, none, none, some none, by simp, by simp⟩]

/-- An update leaves active water without a container. -/
theorem water_without_container :
    ¬ ∀ (s : Db) (ops : List CatalogOperation), Paired s.products →
      Paired (serveEach serve ops s).products := by
  intro hclaim
  have hpaired := hclaim Operations.sampleDb unbottled sampleDb_paired
  have hfind : (serveEach serve unbottled Operations.sampleDb).products.find? 21 =
      some ⟨.water, "water", 100, none, true⟩ := by decide +kernel
  obtain ⟨c, hitem, -⟩ := hpaired.water 21 _ hfind rfl rfl
  cases hitem

end Munavvar.Containers
