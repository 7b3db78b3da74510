import Mathlib.Algebra.BigOperators.Group.Finset.Piecewise
import Mathlib.Data.Finset.Prod
import Munavvar.Aggregation
import Munavvar.Dashboard

/-!
# Trends of the stock

The dashboard tells the stock at the end of past days from the balances of
today: it takes back the net changes of the later days. It takes back only
those of the asked window, so what moved after the window stays in every point.
-/

namespace Munavvar.InventoryTrends

open Munavvar.KeyedTable
open Munavvar.Transaction
open Munavvar.Transaction.Prog
open Munavvar.ReadCommitted
open Munavvar.Database
open Munavvar.DoubleEntry
open Munavvar.StockLedger
open Munavvar.StockConservation
open Munavvar.ListSummaries
open Munavvar.Dashboard
open Munavvar.Aggregation
open Munavvar.OrderService (dateOf dayLength)

/-! ## The query -/

/-- What a column of the trend adds up. -/
structure Series where
  /-- The type of the products. -/
  product : ProductType
  /-- The types of the inventories. -/
  places : List InventoryType

/-- Water in warehouses and with couriers. -/
def waterStock : Series := ⟨.water, [.warehouse, .courier]⟩

/-- Containers in warehouses and with couriers. -/
def containerStock : Series := ⟨.container, [.warehouse, .courier]⟩

/-- Containers at clients. -/
def containersAtClients : Series := ⟨.container, [.client]⟩

/-- The filter of a column. -/
def Series.admits (c : Series) (product : Product) (inventory : Inventory) : Bool :=
  product.type = c.product && inventory.type ∈ c.places

/-- The columns of `cur_stmt`. -/
def curStmt (s : Db) (c : Series) : ℤ :=
  (((balanceBaseJoins s).filter fun j => c.admits j.product j.inventory).map fun j => j.quantity).sum

/-- A movement with its product and its inventories. -/
structure JoinedMovement where
  /-- The movement. -/
  row : StockTransaction
  /-- The inventory that takes. -/
  target : Inventory
  /-- The inventory that gives. -/
  source : Inventory
  /-- What moves. -/
  product : Product

/-- The row that `net_stmt` joins to a movement. -/
def joinMovement (s : Db) (r : Uuid × StockTransaction) : Option JoinedMovement := do
  let target ← s.directory.inventory? r.2.toId
  let source ← s.directory.inventory? r.2.fromId
  let product ← s.products.find? r.2.productId
  return ⟨r.2, target, source, product⟩

/-- `func.date(StockTransaction.created_at)` in the zone of the session. -/
def dayOf (zone : ℤ) (j : JoinedMovement) : ℤ := dateOf (j.row.createdAt + zone)

/-- `created_at >= date_from` and `created_at < end`, where dates are midnights of the session. -/
def inWindow (zone dateFrom dateTo : ℤ) (j : JoinedMovement) : Bool :=
  dateFrom * dayLength - zone ≤ j.row.createdAt && j.row.createdAt < (dateTo + 1) * dayLength - zone

/-- A sum of quantities that `net_stmt` filters by the inventory at one end. -/
def sumAt (c : Series) (side : JoinedMovement → Inventory) (rows : List JoinedMovement) : ℤ :=
  ((rows.filter fun j => c.admits j.product (side j)).map fun j => j.row.quantity).sum

/-- A row of `net_stmt`. -/
structure NetRow where
  /-- The day. -/
  day : ℤ
  /-- Water that came in. -/
  waterIn : ℤ
  /-- Water that went out. -/
  waterOut : ℤ
  /-- Containers that came in. -/
  contIn : ℤ
  /-- Containers that went out. -/
  contOut : ℤ
  /-- Containers that came to clients. -/
  clIn : ℤ
  /-- Containers that left clients. -/
  clOut : ℤ

/-- The row of a day. -/
def netRow (zone : ℤ) (rows : List JoinedMovement) (day : ℤ) : NetRow :=
  let group := rows.filter fun j => dayOf zone j = day
  ⟨day, sumAt waterStock (·.target) group, sumAt waterStock (·.source) group,
    sumAt containerStock (·.target) group, sumAt containerStock (·.source) group,
    sumAt containersAtClients (·.target) group, sumAt containersAtClients (·.source) group⟩

/-- The days on which something moved, in order. -/
def daysOf (zone : ℤ) (rows : List JoinedMovement) : List ℤ :=
  ((rows.map (dayOf zone)).dedup).insertionSort (· ≤ ·)

/-- The movements of the window. -/
def windowRows (zone : ℤ) (s : Db) (dateFrom dateTo : ℤ) : List JoinedMovement :=
  (s.stockTransactions.rows.filterMap (joinMovement s)).filter (inWindow zone dateFrom dateTo)

/-- `net_stmt`. -/
def netStmt (zone : ℤ) (s : Db) (dateFrom dateTo : ℤ) : List NetRow :=
  let rows := windowRows zone s dateFrom dateTo
  (daysOf zone rows).map (netRow zone rows)

/-- `InventoryTrendPoint`. -/
structure InventoryTrendPoint where
  /-- The day. -/
  date : ℤ
  /-- Water in warehouses and with couriers. -/
  waterStock : ℤ
  /-- Containers in warehouses and with couriers. -/
  containerStock : ℤ
  /-- Containers at clients. -/
  containersAtClients : ℤ
  deriving DecidableEq, Repr

/-- The variables of the loop that walks back. -/
structure Walk where
  /-- `points`. -/
  points : List InventoryTrendPoint
  /-- `accum_w`. -/
  accumW : ℤ
  /-- `accum_c`. -/
  accumC : ℤ
  /-- `accum_cl`. -/
  accumCl : ℤ

/-- One round of the loop. -/
def Walk.add (waterNow contNow clNow : ℤ) (st : Walk) (n : ℤ × ℤ × ℤ × ℤ) : Walk :=
  { points := st.points ++ [⟨n.1, waterNow - st.accumW, contNow - st.accumC, clNow - st.accumCl⟩]
    accumW := st.accumW + n.2.1
    accumC := st.accumC + n.2.2.1
    accumCl := st.accumCl + n.2.2.2 }

/-- `get_inventory_trends`. -/
def getInventoryTrends (zone : ℤ) (s : Db) (dateFrom dateTo : ℤ) : List InventoryTrendPoint :=
  let waterNow := curStmt s waterStock
  let contNow := curStmt s containerStock
  let clNow := curStmt s containersAtClients
  let dayNets := (netStmt zone s dateFrom dateTo).map fun r =>
    (r.day, r.waterIn - r.waterOut, r.contIn - r.contOut, r.clIn - r.clOut)
  (dayNets.reverse.foldl (Walk.add waterNow contNow clNow) ⟨[], 0, 0, 0⟩).points.reverse

/-! ## The history -/

/-- The inventories and products of a column. -/
def placesOf (s : Db) (c : Series) : Finset (Uuid × Uuid) :=
  ((s.directory.inventories.map Inventory.id).toFinset ×ˢ
    (s.products.rows.map Prod.fst).toFinset).filter fun a =>
    (s.products.find? a.2).any fun product => (s.directory.inventory? a.1).any (c.admits product)

/-- The sum of a column's balances at the end of a day, recomputed from the ledger. -/
def stockAt (zone : ℤ) (s : Db) (c : Series) (date : ℤ) : ℤ :=
  ∑ a ∈ placesOf s c, getBalance s a.1 a.2 (some ((date + 1) * dayLength - zone - 1))

/-- Every point of a trend tells the stock at the end of its day. -/
def Historical (zone : ℤ) (s : Db) (dateFrom dateTo : ℤ) : Prop :=
  ∀ point ∈ getInventoryTrends zone s dateFrom dateTo,
    point.waterStock = stockAt zone s waterStock point.date ∧
      point.containerStock = stockAt zone s containerStock point.date ∧
      point.containersAtClients = stockAt zone s containersAtClients point.date

/-- What a movement adds to a column. -/
def change (c : Series) (j : JoinedMovement) : ℤ :=
  (if c.admits j.product j.target then j.row.quantity else 0) -
    (if c.admits j.product j.source then j.row.quantity else 0)

/-- What the movements after a day add to a column. -/
def changeAfter (zone : ℤ) (s : Db) (c : Series) (date : ℤ) : ℤ :=
  (((s.stockTransactions.rows.filterMap (joinMovement s)).filter fun j => date < dayOf zone j).map
    (change c)).sum

/-! ## Movements and their inventories -/

/-- Every stored movement that the trigger has seen has its inventories. -/
def Routed (rows : List (Uuid × StockTransaction)) (s : Db) : Prop :=
  ∀ id x, s.stockTransactions.find? id = some x → (id, x) ∈ rows ∨
    (s.directory.inventory? x.fromId).isSome = true ∧ (s.directory.inventory? x.toId).isSome = true

section Statements

variable {R : Regime schema} {s : Db}

/-- A stored movement waits for its foreign keys to be checked. -/
theorem insertRow_routed (hlax : R.Lax) {rows : List (Uuid × StockTransaction)}
    (r : Uuid × StockTransaction) (h : Routed rows s) :
    wp R (issue (.stockTransaction r.1) (.insert r.2)) (fun _ s' => Routed (rows ++ [r]) s')
      (fun _ => True) s := by
  refine wp_execute_of (hlax _ _ _) (fun _ r' hr' => ?_) fun _ _ => trivial
  change (StockTransactionStmt.insert r.2).exec (s.stockTransactions.find? r.1) = .ok r' at hr'
  intro id x hx
  change (s.stockTransactions.put r.1 r').find? id = some x at hx
  rw [Table.find?_put] at hx
  rw [List.mem_append, List.mem_singleton]
  by_cases hid : id = r.1
  · rw [if_pos hid] at hx
    left
    right
    cases hold : s.stockTransactions.find? r.1 with
    | some old =>
      rw [hold] at hr'
      exact absurd hr' (by simp [StockTransactionStmt.exec])
    | none =>
      rw [hold] at hr'
      obtain ⟨rfl, -⟩ := checked_ok hr'
      cases hx
      rw [hid]
  · rw [if_neg hid] at hx
    rcases h id x hx with hwaits | hknown
    · left
      left
      exact hwaits
    · right
      exact hknown

/-- The check of a movement's route finds both inventories. -/
theorem trigger_routed (hsound : R.Sound) (hlax : R.Lax) {rows : List (Uuid × StockTransaction)}
    (r : Uuid × StockTransaction) (h : Routed (r :: rows) s) :
    wp R (do checkRoute r.2; updateInventoryBalances r.2) (fun _ s' => Routed rows s')
      (fun _ => True) s := by
  rw [wp_bind, checkRoute]
  simp only [wp_bind, wp_ask, wp_raiseIf, implies_true, true_and]
  intro v hv _ _ hfrom hto _
  have hd := hsound _ _ hv
  change v.directory = s.directory at hd
  rw [hd] at hfrom hto
  refine updateInventoryBalances_spec hsound hlax r.2 (.inr trivial) (fun _ _ _ _ _ => trivial) ?_
  intro b' _ id x hx
  rcases h id x hx with hwaits | hknown
  · rcases List.mem_cons.mp hwaits with heq | hlater
    · right
      cases heq
      constructor
      · exact Option.isSome_iff_ne_none.mpr (by simpa using hfrom)
      · exact Option.isSome_iff_ne_none.mpr (by simpa using hto)
    · left
      exact hlater
  · right
    exact hknown

/-- Every accepted statement leaves movements with their inventories. -/
theorem statement_routed (hsound : R.Sound) (hlax : R.Lax) (st : StockStatement)
    (h : Routed [] s) :
    wp R st.program (fun _ s' => Routed [] s') (fun _ => True) s := by
  cases st with
  | insertTransfer id row =>
    exact wp_execute_of (hlax _ _ _) (fun _ _ _ => h) fun _ _ => trivial
  | insert rows =>
    exact wp_storeAndTrigger (R := R) Routed (fun _ r _ hs => insertRow_routed hlax r hs)
      (fun r _ _ hs => trigger_routed hsound hlax r hs) h
  | update id row =>
    dsimp only [StockStatement.program, updateStockTransaction]
    simp only [wp_bind, wp_whenever]
    constructor
    · intro _
      exact wp_execute_of (hlax _ _ _) (fun _ _ _ => trivial) fun _ _ => trivial
    · intro _
      exact h
  | delete id =>
    dsimp only [StockStatement.program, deleteStockTransaction]
    simp only [wp_bind, wp_whenever]
    constructor
    · intro _
      exact wp_execute_of (hlax _ _ _) (fun _ _ _ => trivial) fun _ _ => trivial
    · intro _
      exact h

end Statements

/-- What is known of a state whose movements the trigger has seen. -/
structure Recorded (s : Db) : Prop where
  /-- The balances are those of the ledger. -/
  ledger : Ledger s
  /-- Movements have their inventories. -/
  routed : Routed [] s

theorem recorded_of_reach {db : Db} {σ : Sys schema (List StockStatement)}
    (hledger : db.stockTransactions = Table.empty) (hbalances : db.balances = Table.empty)
    (hreach : Reach transactionProgram (fun _ _ _ => True) (Sys.init db) σ) : Recorded σ.db := by
  have hrouted : Routed [] db := by
    intro id x hx
    rw [hledger, Table.find?_empty] at hx
    cases hx
  constructor
  · exact ledger_of_reach hledger hbalances hreach
  · refine hreach.invariant (fun sts s hs => ?_) hrouted
    exact wp_forEach StockStatement.program (fun _ => Routed []) (fun st _ _ hs => statement_routed
      (Regime.concurrentAssuming_sound _) (Regime.concurrentAssuming_lax _) st hs) sts s hs

/-! ## Columns of the ledger -/

section Columns

variable {s : Db} {c : Series}

theorem mem_placesOf (s : Db) (c : Series) (a : Uuid × Uuid) : a ∈ placesOf s c ↔
    ∃ product inventory, s.products.find? a.2 = some product ∧
      s.directory.inventory? a.1 = some inventory ∧ c.admits product inventory = true := by
  unfold placesOf
  rw [Finset.mem_filter, Finset.mem_product, List.mem_toFinset, List.mem_toFinset]
  constructor
  · rintro ⟨-, h⟩
    obtain ⟨product, hproduct, h⟩ := (Option.any_eq_true _ _).mp h
    obtain ⟨inventory, hinventory, h⟩ := (Option.any_eq_true _ _).mp h
    exact ⟨product, inventory, hproduct, hinventory, h⟩
  · rintro ⟨product, inventory, hproduct, hinventory, h⟩
    constructor
    · constructor
      · have hid := List.find?_some hinventory
        exact List.mem_map.mpr
          ⟨inventory, List.mem_of_find?_eq_some hinventory, of_decide_eq_true hid⟩
      · exact List.mem_map.mpr ⟨(a.2, product), (Table.mem_rows_iff _ _ _).mpr hproduct, rfl⟩
    · rw [hproduct, hinventory, Option.any_some, Option.any_some, h]

/-- A place of known inventory and product is one of a column if the column admits them. -/
theorem mem_placesOf_iff {a : Uuid × Uuid} {product : Product} {inventory : Inventory}
    (hproduct : s.products.find? a.2 = some product)
    (hinventory : s.directory.inventory? a.1 = some inventory) :
    a ∈ placesOf s c ↔ c.admits product inventory = true := by
  rw [mem_placesOf]
  constructor
  · rintro ⟨product', inventory', hproduct', hinventory', h⟩
    rw [hproduct] at hproduct'
    rw [hinventory] at hinventory'
    cases hproduct'
    cases hinventory'
    exact h
  · intro h
    exact ⟨product, inventory, hproduct, hinventory, h⟩

/-- The current columns are sums of balances. -/
theorem curStmt_eq (h : Placed s) : curStmt s c = ∑ a ∈ placesOf s c, balance s.balances a := by
  rw [sum_balance, Table.total, curStmt, balanceBaseJoins_eq]
  have hrows : ∀ rows : List ((Uuid × Uuid) × ℤ), (∀ r ∈ rows, r ∈ s.balances.rows) →
      (((rows.filterMap (joinRow s)).filter fun j => c.admits j.product j.inventory).map
        fun j => j.quantity).sum =
      (rows.map fun r => if r.1 ∈ placesOf s c then r.2 else 0).sum := by
    intro rows
    induction rows with
    | nil => exact fun _ => rfl
    | cons r rows ih =>
      intro hmem
      have ih := ih fun r' hr' => hmem r' (List.mem_cons_of_mem _ hr')
      have hstored := (Table.mem_rows_iff _ r.1 r.2).mp (hmem r List.mem_cons_self)
      obtain ⟨i, hi⟩ := Option.isSome_iff_exists.mp (h r.1 r.2 hstored)
      rw [List.map_cons, List.sum_cons, ← ih]
      cases hp : s.products.find? r.1.2 with
      | none =>
        have hnone : joinRow s r = none := by simp [joinRow, hp]
        have hout : r.1 ∉ placesOf s c := by
          rw [mem_placesOf]
          rintro ⟨product, -, hproduct, -⟩
          rw [hp] at hproduct
          cases hproduct
        rw [List.filterMap_cons_none hnone, if_neg hout, zero_add]
      | some p =>
        have hjoin : joinRow s r = some ⟨r.2, r.1.2, p, i⟩ := by simp [joinRow, hp, hi]
        rw [List.filterMap_cons_some hjoin, List.filter_cons]
        cases hok : c.admits p i with
        | true =>
          rw [if_pos rfl, if_pos ((mem_placesOf_iff hp hi).mpr hok), List.map_cons, List.sum_cons]
        | false =>
          have hout : r.1 ∉ placesOf s c := by
            rw [mem_placesOf_iff hp hi, hok]
            exact Bool.false_ne_true
          rw [if_neg Bool.false_ne_true, if_neg hout, zero_add]
  exact hrows s.balances.rows fun _ hr => hr

/-- What a stored movement adds to a column. -/
theorem sum_effect_eq (h : Routed [] s) {id : Uuid} {x : StockTransaction}
    (hx : s.stockTransactions.find? id = some x) :
    ∑ a ∈ placesOf s c, (entry x).effect a = (joinMovement s (id, x)).elim 0 (change c) := by
  rw [Entry.sum_effect]
  change (if (x.toId, x.productId) ∈ placesOf s c then x.quantity else 0) -
    (if (x.fromId, x.productId) ∈ placesOf s c then x.quantity else 0) = _
  rcases h id x hx with hnil | ⟨hfrom, hto⟩
  · cases hnil
  obtain ⟨source, hfrom⟩ := Option.isSome_iff_exists.mp hfrom
  obtain ⟨target, hto⟩ := Option.isSome_iff_exists.mp hto
  cases hp : s.products.find? x.productId with
  | none =>
    have hout : ∀ i, (i, x.productId) ∉ placesOf s c := by
      intro i
      rw [mem_placesOf]
      rintro ⟨product, -, hproduct, -⟩
      rw [hp] at hproduct
      cases hproduct
    rw [if_neg (hout _), if_neg (hout _)]
    simp [joinMovement, hfrom, hto, hp]
  | some product =>
    have hjoin : joinMovement s (id, x) = some ⟨x, target, source, product⟩ := by
      simp [joinMovement, hfrom, hto, hp]
    have hmem : (x.toId, x.productId) ∈ placesOf s c ↔ c.admits product target = true :=
      mem_placesOf_iff hp hto
    have hmem' : (x.fromId, x.productId) ∈ placesOf s c ↔ c.admits product source = true :=
      mem_placesOf_iff hp hfrom
    rw [hjoin]
    simp only [hmem, hmem']
    rfl

/-- `get_balance` nets the movements up to a time. -/
theorem getBalance_asOf (h : Pending [] s) (i p : Uuid) (time : ℤ) :
    getBalance s i p (some time) = s.stockTransactions.total fun _ x =>
      if x.createdAt ≤ time then (entry x).effect (i, p) else 0 := by
  have hsigned : ∀ id x, s.stockTransactions.find? id = some x → concerns i p x = true →
      signedQuantity i x = (entry x).effect (i, p) :=
    fun id x hx hc => signedQuantity_eq_effect (h.rows_ok id x hx).2 hc
  unfold getBalance
  have hselected : (s.stockTransactions.select fun _ x => x.productId = p &&
      (x.toId = i || x.fromId = i) && (some time).all fun t => x.createdAt ≤ t).map
        (signedQuantity i) =
      (s.stockTransactions.select fun _ x => x.productId = p &&
        (x.toId = i || x.fromId = i) && (some time).all fun t => x.createdAt ≤ t).map
        fun x => if x.createdAt ≤ time then (entry x).effect (i, p) else 0 := by
    apply List.map_congr_left
    intro x hx
    obtain ⟨id, hid, hx⟩ := (Table.mem_select_iff _ _ _).mp hx
    rw [Bool.and_eq_true, Option.all_some, decide_eq_true_eq] at hx
    rw [if_pos hx.2]
    apply hsigned id x hid
    rw [concerns, hx.1]
    rfl
  rw [hselected]
  apply Table.sum_select
  intro id x hx hnot
  by_cases htime : x.createdAt ≤ time
  · rw [if_pos htime]
    apply effect_eq_zero
    rw [Option.all_some, decide_eq_true htime, Bool.and_true] at hnot
    rw [concerns, hnot]
    rfl
  · exact if_neg htime

theorem joinMovement_row {r : Uuid × StockTransaction} {j : JoinedMovement}
    (h : joinMovement s r = some j) : j.row = r.2 := by
  unfold joinMovement at h
  cases hto : s.directory.inventory? r.2.toId with
  | none => simp [hto] at h
  | some target =>
    cases hfrom : s.directory.inventory? r.2.fromId with
    | none => simp [hto, hfrom] at h
    | some source =>
      cases hp : s.products.find? r.2.productId with
      | none => simp [hto, hfrom, hp] at h
      | some product =>
        simp only [hto, hfrom, hp, Option.bind_eq_bind, Option.bind_some, pure,
          Option.some.injEq] at h
        rw [← h]

/-- The changes of joined rows, told from the rows. -/
theorem sum_joined (s : Db) (p : JoinedMovement → Bool) (g : JoinedMovement → ℤ) :
    (((s.stockTransactions.rows.filterMap (joinMovement s)).filter p).map g).sum =
      s.stockTransactions.total fun id x =>
        (joinMovement s (id, x)).elim 0 fun j => if p j then g j else 0 := by
  unfold Table.total
  induction s.stockTransactions.rows with
  | nil => rfl
  | cons r rows ih =>
    rw [List.map_cons, List.sum_cons, ← ih]
    change _ = ((joinMovement s r).elim 0 fun j => if p j then g j else 0) + _
    cases hjoin : joinMovement s r with
    | none => rw [List.filterMap_cons_none hjoin, Option.elim_none, zero_add]
    | some j =>
      rw [List.filterMap_cons_some hjoin, Option.elim_some, List.filter_cons]
      cases hp : p j with
      | true => rw [if_pos rfl, if_pos rfl, List.map_cons, List.sum_cons]
      | false => rw [if_neg Bool.false_ne_true, if_neg Bool.false_ne_true, zero_add]

/-- The current stock less the later changes is the stock at the end of a day. -/
theorem stockAt_eq (h : Recorded s) (zone : ℤ) (c : Series) (date : ℤ) :
    stockAt zone s c date = curStmt s c - changeAfter zone s c date := by
  have hlag : ∀ a, balance s.balances a =
      s.stockTransactions.total fun _ x => (entry x).effect a := by
    intro a
    have hlag := h.ledger.settled.lag a
    rw [outstanding, List.map_nil, List.sum_nil, add_zero] at hlag
    exact hlag
  rw [curStmt_eq h.ledger.placed, stockAt, changeAfter, sum_joined]
  simp only [getBalance_asOf h.ledger.settled, hlag]
  rw [sum_total, sum_total, ← Table.total_sub]
  apply Table.total_congr
  intro id x hx
  rw [sum_effect_eq h.routed hx]
  have hday : x.createdAt ≤ (date + 1) * dayLength - zone - 1 ↔
      ¬ date < dateOf (x.createdAt + zone) := by
    unfold dateOf dayLength
    omega
  have heffect := sum_effect_eq (c := c) h.routed hx
  have hdays : ∀ j, joinMovement s (id, x) = some j → dayOf zone j = dateOf (x.createdAt + zone) := by
    intro j hj
    rw [dayOf, joinMovement_row hj]
  by_cases htime : x.createdAt ≤ (date + 1) * dayLength - zone - 1
  · simp only [if_pos htime]
    rw [heffect]
    cases hjoin : joinMovement s (id, x) with
    | none => rfl
    | some j =>
      have hnot := hday.mp htime
      rw [← hdays j hjoin] at hnot
      rw [Option.elim_some, Option.elim_some, if_neg (by simpa using hnot), sub_zero]
  · simp only [if_neg htime, Finset.sum_const_zero]
    cases hjoin : joinMovement s (id, x) with
    | none => rfl
    | some j =>
      have hlater := not_not.mp fun hnot => htime (hday.mpr hnot)
      rw [← hdays j hjoin] at hlater
      rw [Option.elim_some, Option.elim_some, if_pos (by simpa using hlater), sub_self]

end Columns

/-! ## The walk back -/

section Walks

/-- What enters a column less what leaves it is what its movements change. -/
theorem sumAt_sub (c : Series) (rows : List JoinedMovement) :
    sumAt c (·.target) rows - sumAt c (·.source) rows = (rows.map (change c)).sum := by
  induction rows with
  | nil => rfl
  | cons j rows ih =>
    rw [List.map_cons, List.sum_cons, ← ih, change]
    unfold sumAt
    rw [List.filter_cons, List.filter_cons]
    split <;> split <;> simp only [List.map_cons, List.sum_cons] <;> omega

theorem daysOf_sorted (zone : ℤ) (rows : List JoinedMovement) :
    (daysOf zone rows).Pairwise (· < ·) := by
  have hsorted := List.pairwise_insertionSort (· ≤ ·) ((rows.map (dayOf zone)).dedup)
  have hnodup : (daysOf zone rows).Nodup :=
    (List.perm_insertionSort (· ≤ ·) _).nodup_iff.mpr (List.nodup_dedup _)
  exact (hsorted.and hnodup).imp fun h => lt_of_le_of_ne h.1 h.2

theorem mem_daysOf (zone : ℤ) (rows : List JoinedMovement) (day : ℤ) :
    day ∈ daysOf zone rows ↔ ∃ j ∈ rows, dayOf zone j = day := by
  unfold daysOf
  rw [(List.perm_insertionSort (· ≤ ·) _).mem_iff, List.mem_dedup, List.mem_map]

/-- The loop takes the changes of later days from what there is now. -/
theorem foldl_add (waterNow contNow clNow : ℤ) (w c cl : ℤ → ℤ) {days : List ℤ}
    (h : days.Pairwise (· < ·)) :
    let st := (days.map fun d => (d, w d, c d, cl d)).reverse.foldl (Walk.add waterNow contNow clNow)
      ⟨[], 0, 0, 0⟩
    (st.accumW = (days.map w).sum ∧ st.accumC = (days.map c).sum ∧
        st.accumCl = (days.map cl).sum) ∧
      st.points.reverse = days.map fun d => ⟨d, waterNow - ((days.filter (d < ·)).map w).sum,
        contNow - ((days.filter (d < ·)).map c).sum,
        clNow - ((days.filter (d < ·)).map cl).sum⟩ := by
  induction days with
  | nil => exact ⟨⟨rfl, rfl, rfl⟩, rfl⟩
  | cons d days ih =>
    rw [List.pairwise_cons] at h
    obtain ⟨⟨hw, hc, hcl⟩, hpoints⟩ := ih h.2
    -- The first day is the last one that the loop comes to.
    have hfirst : (d :: days).filter (d < ·) = days := by
      rw [List.filter_cons, if_neg (by simp)]
      exact List.filter_eq_self.mpr fun d' hd' => decide_eq_true (h.1 d' hd')
    have hlater : ∀ d' ∈ days, (d :: days).filter (d' < ·) = days.filter (d' < ·) := by
      intro d' hd'
      have hlt := h.1 d' hd'
      rw [List.filter_cons, if_neg (by simp; omega)]
    rw [List.map_cons, List.reverse_cons, List.foldl_append, List.foldl_cons, List.foldl_nil]
    dsimp only [Walk.add]
    rw [hw, hc, hcl, List.reverse_append, hpoints, List.map_cons, List.sum_cons, List.map_cons,
      List.sum_cons, List.map_cons, List.sum_cons, List.map_cons, hfirst]
    constructor
    · constructor
      · omega
      · constructor <;> omega
    · apply congrArg (_ :: ·)
      apply List.map_congr_left
      intro d' hd'
      rw [hlater d' hd']

/-- A point takes the later changes of the window back. -/
theorem getInventoryTrends_eq (zone : ℤ) (s : Db) (dateFrom dateTo : ℤ) :
    getInventoryTrends zone s dateFrom dateTo =
      (daysOf zone (windowRows zone s dateFrom dateTo)).map fun d =>
        let later (c : Series) : ℤ :=
          (((windowRows zone s dateFrom dateTo).filter fun j => d < dayOf zone j).map (change c)).sum
        ⟨d, curStmt s waterStock - later waterStock, curStmt s containerStock - later containerStock,
          curStmt s containersAtClients - later containersAtClients⟩ := by
  have hsorted := daysOf_sorted zone (windowRows zone s dateFrom dateTo)
  have hnodup : (daysOf zone (windowRows zone s dateFrom dateTo)).Nodup := hsorted.imp ne_of_lt
  let net (c : Series) (d : ℤ) : ℤ :=
    (((windowRows zone s dateFrom dateTo).filter fun j => dayOf zone j = d).map (change c)).sum
  have hlater : ∀ (c : Series) (d : ℤ),
      (((daysOf zone (windowRows zone s dateFrom dateTo)).filter (d < ·)).map (net c)).sum =
        (((windowRows zone s dateFrom dateTo).filter fun j => d < dayOf zone j).map (change c)).sum := by
    intro c d
    rw [sum_groups (hnodup.filter _) (dayOf zone) (change c)]
    congr 2
    apply List.filter_congr
    intro j hj
    have hmem := (mem_daysOf zone (windowRows zone s dateFrom dateTo) (dayOf zone j)).mpr ⟨j, hj, rfl⟩
    simp [List.mem_filter, hmem]
  have hwalk := (foldl_add (curStmt s waterStock) (curStmt s containerStock)
    (curStmt s containersAtClients) (net waterStock) (net containerStock) (net containersAtClients)
    hsorted).2
  have hnets : ((netStmt zone s dateFrom dateTo).map fun r =>
      (r.day, r.waterIn - r.waterOut, r.contIn - r.contOut, r.clIn - r.clOut)) =
      (daysOf zone (windowRows zone s dateFrom dateTo)).map fun d =>
        (d, net waterStock d, net containerStock d, net containersAtClients d) := by
    unfold netStmt
    rw [List.map_map]
    apply List.map_congr_left
    intro d _
    dsimp only [Function.comp, netRow]
    rw [sumAt_sub, sumAt_sub, sumAt_sub]
  unfold getInventoryTrends
  dsimp only
  rw [hnets, hwalk]
  simp only [hlater]

end Walks

/-! ## When the trend is the history -/

section History

variable {s : Db} {zone dateFrom dateTo : ℤ}

/-- The movements of the window are those of its days. -/
theorem inWindow_iff (j : JoinedMovement) :
    inWindow zone dateFrom dateTo j = true ↔ dateFrom ≤ dayOf zone j ∧ dayOf zone j ≤ dateTo := by
  unfold inWindow dayOf dateOf dayLength
  rw [Bool.and_eq_true, decide_eq_true_eq, decide_eq_true_eq]
  omega

/-- What is changed after a day is changed within the window or after it. -/
theorem changeAfter_split (c : Series) {d : ℤ} (hfrom : dateFrom ≤ d) (hto : d ≤ dateTo) :
    changeAfter zone s c d =
      (((windowRows zone s dateFrom dateTo).filter fun j => d < dayOf zone j).map (change c)).sum +
        changeAfter zone s c dateTo := by
  unfold changeAfter windowRows
  induction s.stockTransactions.rows.filterMap (joinMovement s) with
  | nil => rfl
  | cons j rows ih =>
    have hwindow : inWindow zone dateFrom dateTo j = true ↔ _ := inWindow_iff j
    rw [List.filter_filter] at ih ⊢
    simp only [List.filter_cons, Bool.and_eq_true, decide_eq_true_eq, hwindow] at ih ⊢
    by_cases hlater : d < dayOf zone j
    · by_cases hafter : dateTo < dayOf zone j
      · rw [if_pos hlater, if_neg (by omega), if_pos hafter]
        simp only [List.map_cons, List.sum_cons, ih]
        omega
      · rw [if_pos hlater, if_pos (by omega), if_neg hafter]
        simp only [List.map_cons, List.sum_cons, ih]
        omega
    · rw [if_neg hlater, if_neg (by omega), if_neg (by omega)]
      exact ih

/-- A column of a point is right exactly if nothing of it changed after the window. -/
theorem column_eq_iff (h : Recorded s) (c : Series) {d : ℤ} (hfrom : dateFrom ≤ d) (hto : d ≤ dateTo) :
    curStmt s c -
        (((windowRows zone s dateFrom dateTo).filter fun j => d < dayOf zone j).map (change c)).sum =
      stockAt zone s c d ↔ changeAfter zone s c dateTo = 0 := by
  have hsplit : changeAfter zone s c d = _ := changeAfter_split c hfrom hto
  rw [stockAt_eq h]
  omega

/-- The days of the points are those of the window on which something moved. -/
theorem mem_window {d : ℤ} (hd : d ∈ daysOf zone (windowRows zone s dateFrom dateTo)) :
    dateFrom ≤ d ∧ d ≤ dateTo := by
  obtain ⟨j, hj, rfl⟩ := (mem_daysOf _ _ _).mp hd
  exact (inWindow_iff j).mp (List.mem_filter.mp hj).2

/-- A trend is the history of the balances exactly if it has no point or no
column has changed since the window. -/
theorem trends_historical_iff {db : Db} {σ : Sys schema (List StockStatement)}
    (hledger : db.stockTransactions = Table.empty) (hbalances : db.balances = Table.empty)
    (hreach : Reach transactionProgram (fun _ _ _ => True) (Sys.init db) σ)
    (zone dateFrom dateTo : ℤ) :
    Historical zone σ.db dateFrom dateTo ↔ windowRows zone σ.db dateFrom dateTo = [] ∨
      ∀ c ∈ [waterStock, containerStock, containersAtClients], changeAfter zone σ.db c dateTo = 0 := by
  have h := recorded_of_reach hledger hbalances hreach
  unfold Historical
  rw [getInventoryTrends_eq, List.forall_mem_map]
  constructor
  · intro hpoints
    cases hrows : windowRows zone σ.db dateFrom dateTo with
    | nil =>
      left
      rfl
    | cons j rows =>
      right
      have hj : j ∈ windowRows zone σ.db dateFrom dateTo := hrows ▸ List.mem_cons_self
      have hday := (mem_daysOf zone _ _).mpr ⟨j, hj, rfl⟩
      obtain ⟨hfrom, hto⟩ := mem_window hday
      obtain ⟨hwater, hcont, hcl⟩ := hpoints _ hday
      intro c hc
      rw [List.mem_cons, List.mem_cons, List.mem_singleton] at hc
      rcases hc with rfl | rfl | rfl
      · exact (column_eq_iff h _ hfrom hto).mp hwater
      · exact (column_eq_iff h _ hfrom hto).mp hcont
      · exact (column_eq_iff h _ hfrom hto).mp hcl
  · intro hcases d hd
    obtain ⟨hfrom, hto⟩ := mem_window hd
    rcases hcases with hnone | hsince
    · rw [hnone] at hd
      cases hd
    · constructor
      · exact (column_eq_iff h _ hfrom hto).mpr (hsince _ (by simp))
      · constructor
        · exact (column_eq_iff h _ hfrom hto).mpr (hsince _ (by simp))
        · exact (column_eq_iff h _ hfrom hto).mpr (hsince _ (by simp))

end History

/-! ## A past window -/

/-- Ten bottles are taken in on one day, and one of them breaks on the next day. -/
def brokenLater : List (ReadCommitted.Action (List StockStatement)) :=
  let move (transfer movement fromId toId : Uuid) (type : TransferType) (quantity time : ℤ) :
      List StockStatement :=
    [.insertTransfer transfer ⟨fromId, toId, type, .completed, 9, some 9, none, none, []⟩,
      .insert [(movement, ⟨transfer, 7, fromId, toId, quantity, time⟩)]]
  let alone (t : ℕ) (statements : List StockStatement) :=
    [ReadCommitted.Action.start t statements] ++ List.replicate 9 (.step t) ++ [.commit t]
  alone 0 (move 11 21 1 2 .initialBalance 10 0) ++ alone 1 (move 12 22 2 4 .lossWriteOff 1 dayLength)

theorem trends_historical_iff_sample :
    ∃ σ, brokenLater.foldlM (Sys.exec transactionProgram) (Sys.init sampleBottles) = some σ ∧
      (Historical 0 σ.db 0 0 ↔ windowRows 0 σ.db 0 0 = [] ∨
        ∀ c ∈ [waterStock, containerStock, containersAtClients], changeAfter 0 σ.db c 0 = 0) := by
  have hrun : (brokenLater.foldlM (Sys.exec transactionProgram) (Sys.init sampleBottles)).isSome =
      true := by decide +kernel
  obtain ⟨σ, hσ⟩ := Option.isSome_iff_exists.mp hrun
  exact ⟨σ, hσ, trends_historical_iff rfl rfl (Reach.of_actions _ hσ) 0 0 0⟩

/-- The first day's point already lacks the bottle that breaks on the second day. -/
theorem trend_of_past_window :
    ¬ ∀ (db : Db) (σ : Sys schema (List StockStatement)) (zone dateFrom dateTo : ℤ),
      db.stockTransactions = Table.empty → db.balances = Table.empty →
      Reach transactionProgram (fun _ _ _ => True) (Sys.init db) σ → dateFrom ≤ dateTo →
      Historical zone σ.db dateFrom dateTo := by
  intro hclaim
  have heval : (brokenLater.foldlM (Sys.exec transactionProgram) (Sys.init sampleBottles)).map
      (fun σ => (getInventoryTrends 0 σ.db 0 0, stockAt 0 σ.db containerStock 0)) =
      some ([⟨0, 0, 9, 0⟩], 10) := by decide +kernel
  obtain ⟨σ, hrun, heval⟩ := Option.map_eq_some_iff.mp heval
  obtain ⟨hpoints, hstock⟩ := Prod.mk.inj heval
  have hpast := hclaim sampleBottles σ 0 0 0 rfl rfl (Reach.of_actions _ hrun) le_rfl
  rw [Historical, hpoints] at hpast
  have hpoint := (hpast _ List.mem_cons_self).2.1
  rw [hstock] at hpoint
  cases hpoint

end Munavvar.InventoryTrends
