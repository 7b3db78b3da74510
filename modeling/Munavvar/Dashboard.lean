import Munavvar.ListSummaries
import Munavvar.Bag
import Munavvar.OrderService

/-!
# The dashboard of the warehouse

The dashboard adds up balances by the type of their inventory, once for all
products and once for each. The figures check one another: what the vendor has
given is what is lost and what is still there. They agree in every conserved
ledger in which the vendor only gives.
-/

namespace Munavvar.Dashboard

open Munavvar.KeyedTable
open Munavvar.Transaction
open Munavvar.Transaction.Prog
open Munavvar.ReadCommitted
open Munavvar.Database
open Munavvar.DoubleEntry
open Munavvar.StockLedger
open Munavvar.StockConservation
open Munavvar.ListSummaries
open Munavvar.OrderService (dateOf dayLength)

/-! ## Containers -/

/-- `ContainerProductBreakdown`. -/
structure ContainerProductBreakdown where
  /-- The container. -/
  productId : Uuid
  /-- Its name. -/
  productName : String
  /-- Pieces in warehouses. -/
  atWarehouses : ℤ := 0
  /-- Pieces with couriers. -/
  atCouriers : ℤ := 0
  /-- Pieces with clients. -/
  atClients : ℤ := 0
  /-- Pieces written off. -/
  lost : ℤ := 0
  /-- All of them. -/
  total : ℤ := 0
  deriving DecidableEq, Repr

/-- `ContainerDistribution`. -/
structure ContainerDistribution where
  /-- Containers in warehouses. -/
  atWarehouses : ℤ
  /-- Containers with couriers. -/
  atCouriers : ℤ
  /-- Containers with clients. -/
  atClients : ℤ
  /-- Containers written off. -/
  lost : ℤ
  /-- Containers that came from the vendor. -/
  totalInSystem : ℤ
  /-- The same for each product. -/
  perProduct : List ContainerProductBreakdown
  deriving DecidableEq, Repr

/-- A row of a query that groups by product and type of inventory. -/
abbrev GroupedRow := (Uuid × String × InventoryType) × ℤ

/-- The figure of a breakdown that belongs to a type of inventory. -/
def ContainerProductBreakdown.set (p : ContainerProductBreakdown) (type : InventoryType)
    (quantity : ℤ) : ContainerProductBreakdown :=
  match type with
  | .warehouse => { p with atWarehouses := quantity }
  | .courier => { p with atCouriers := quantity }
  | .client => { p with atClients := quantity }
  | .virtualLoss => { p with lost := quantity }
  | .virtualVendor => p

/-- Enter one row into the breakdown of its product, which is made on first use. -/
def enter : List ContainerProductBreakdown → GroupedRow → List ContainerProductBreakdown
  | [], r => [({ productId := r.1.1, productName := r.1.2.1 } : ContainerProductBreakdown).set
      r.1.2.2 r.2]
  | p :: ps, r =>
    if p.productId = r.1.1 then p.set r.1.2.2 r.2 :: ps else p :: enter ps r

/-- The pieces that a breakdown knows of. -/
def ContainerProductBreakdown.located (p : ContainerProductBreakdown) : ℤ :=
  p.atWarehouses + p.atCouriers + p.atClients + p.lost

/-- The balances of some products, grouped by product and type of inventory. -/
def groupedRows (joined : List JoinedBalance) : List GroupedRow :=
  Bag.collect (joined.map fun j => ((j.productId, j.product.name, j.inventory.type), j.quantity))

/-- `get_container_distribution`. -/
def getContainerDistribution (s : Db) : ContainerDistribution :=
  let joined := (balanceBaseJoins s).filter fun j => j.product.type = .container
  let totals := Bag.collect (joined.map fun j => (j.inventory.type, j.quantity))
  let products := (groupedRows joined).foldl enter []
  { atWarehouses := (totals.lookup .warehouse).getD 0
    atCouriers := (totals.lookup .courier).getD 0
    atClients := (totals.lookup .client).getD 0
    lost := (totals.lookup .virtualLoss).getD 0
    totalInSystem := ((totals.lookup .virtualVendor).getD 0).natAbs
    perProduct := products.map fun p => { p with total := p.located } }

/-! ## Virtual accounts -/

/-- `VirtualProductBalance`. -/
structure VirtualProductBalance where
  /-- The product. -/
  productId : Uuid
  /-- Its name. -/
  productName : String
  /-- The vendor's balance. -/
  vendorBalance : ℤ
  /-- The balance of the loss. -/
  lossBalance : ℤ
  deriving DecidableEq, Repr

/-- `VirtualAccountsResponse`. -/
structure VirtualAccountsResponse where
  /-- What the vendor has given. -/
  vendorTotal : ℤ
  /-- What was written off. -/
  lossTotal : ℤ
  /-- What is there. -/
  realTotal : ℤ
  /-- Whether the three agree. -/
  integrityOk : Bool
  /-- By how much they do not. -/
  integrityDiff : ℤ
  /-- Products with a virtual balance. -/
  perProduct : List VirtualProductBalance
  /-- What was written off on each of the last days. -/
  lossTrend30d : List (ℤ × ℤ)
  deriving DecidableEq, Repr

/-- `real_types`. -/
def realTypes : List InventoryType := [.warehouse, .courier, .client]

/-- The quantities of the rows of some types of inventories, by product. -/
def byProduct (rows : List GroupedRow) (types : List InventoryType) : List (Uuid × ℤ) :=
  (rows.filter fun r => r.1.2.2 ∈ types).map fun r => (r.1.1, r.2)

/-- The losses of the thirty days before a date, day by day. -/
def lossTrend (today : ℤ) (s : Db) : List (ℤ × ℤ) :=
  let losses := s.stockTransactions.select fun _ x =>
    (s.directory.inventory? x.toId).any (fun i => i.type = .virtualLoss) &&
      (today - 30) * dayLength ≤ x.createdAt
  (Bag.collect (losses.map fun x => (dateOf x.createdAt, x.quantity))).insertionSort
    fun a b => a.1 ≤ b.1

/-- `get_virtual_accounts`. -/
def getVirtualAccounts (today : ℤ) (s : Db) : VirtualAccountsResponse :=
  let rows := groupedRows (balanceBaseJoins s)
  let vendorByProduct := Bag.collect (byProduct rows [.virtualVendor])
  let lossByProduct := Bag.collect (byProduct rows [.virtualLoss])
  let names := (rows.map fun r => (r.1.1, r.1.2.1)).eraseDups
  let vendorTotal := ((byProduct rows [.virtualVendor]).map Prod.snd).sum
  let lossTotal := ((byProduct rows [.virtualLoss]).map Prod.snd).sum
  let realTotal := ((byProduct rows realTypes).map Prod.snd).sum
  let absVendor : ℤ := vendorTotal.natAbs
  let diff := absVendor - lossTotal - realTotal
  { vendorTotal := absVendor
    lossTotal
    realTotal
    integrityOk := diff = 0
    integrityDiff := diff
    perProduct := names.filterMap fun x =>
      let vb := (vendorByProduct.lookup x.1).getD 0
      let lb := (lossByProduct.lookup x.1).getD 0
      if vb ≠ 0 ∨ lb ≠ 0 then some ⟨x.1, x.2, vb, lb⟩ else none
    lossTrend30d := lossTrend today s }

/-! ## Balances and their inventories -/

/-- Balances are those of inventories in the directory. -/
def Placed (s : Db) : Prop :=
  ∀ a q, s.balances.find? a = some q → (s.directory.inventory? a.1).isSome = true

section Statements

variable {R : Regime schema} {s : Db}

/-- The trigger makes balances only for the ends of a route whose keys were checked. -/
theorem trigger_placed (hsound : R.Sound) (hlax : R.Lax) (row : StockTransaction) (h : Placed s) :
    wp R (do checkRoute row; updateInventoryBalances row) (fun _ s' => Placed s')
      (fun _ => True) s := by
  rw [wp_bind, checkRoute]
  simp only [wp_bind, wp_ask, wp_raiseIf, implies_true, true_and]
  intro v hv _ _ hfrom hto _
  have hd := hsound _ _ hv
  change v.directory = s.directory at hd
  rw [hd] at hfrom hto
  have hsource : (s.directory.inventory? row.fromId).isSome = true :=
    Option.isSome_iff_ne_none.mpr (by simpa using hfrom)
  have htarget : (s.directory.inventory? row.toId).isSome = true :=
    Option.isSome_iff_ne_none.mpr (by simpa using hto)
  refine updateInventoryBalances_spec hsound hlax row (.inr trivial) (fun _ _ _ _ _ => trivial) ?_
  intro b' hposted a q hq
  by_cases hs : a = (entry row).source
  · rw [hs]
    exact hsource
  · by_cases ht : a = (entry row).target
    · rw [ht]
      exact htarget
    · exact h a q ((hposted.other_eq a hs ht).symm.trans hq)

/-- Every accepted statement keeps the balances in their places. -/
theorem statement_placed (hsound : R.Sound) (hlax : R.Lax) (st : StockStatement) (h : Placed s) :
    wp R st.program (fun _ s' => Placed s') (fun _ => True) s := by
  cases st with
  | insertTransfer id row =>
    exact wp_execute_of (hlax _ _ _) (fun _ _ _ => h) fun _ _ => trivial
  | insert rows =>
    have hrow : ∀ (r : Uuid × StockTransaction) (s : Db), Placed s →
        wp R (issue (.stockTransaction r.1) (.insert r.2)) (fun _ s' => Placed s')
          (fun _ => True) s :=
      fun r s hs => wp_execute_of (hlax _ _ _) (fun _ _ _ => hs) fun _ _ => trivial
    exact wp_storeAndTrigger (R := R) (fun _ => Placed) (fun _ r s hs => hrow r s hs)
      (fun r _ _ hs => trigger_placed hsound hlax r.2 hs) h
  | update id row =>
    dsimp only [StockStatement.program, updateStockTransaction]
    simp only [wp_bind, wp_whenever]
    refine ⟨fun _ => ?_, fun _ => h⟩
    exact wp_execute_of (hlax _ _ _) (fun _ _ _ => trivial) fun _ _ => trivial
  | delete id =>
    dsimp only [StockStatement.program, deleteStockTransaction]
    simp only [wp_bind, wp_whenever]
    refine ⟨fun _ => ?_, fun _ => h⟩
    exact wp_execute_of (hlax _ _ _) (fun _ _ _ => trivial) fun _ _ => trivial

end Statements

/-- What is known of a state that the trigger leads to. -/
structure Ledger (s : Db) : Prop where
  /-- No movement waits for its trigger. -/
  settled : Pending [] s
  /-- Balances have inventories. -/
  placed : Placed s

theorem ledger_of_reach {db : Db} {σ : Sys schema (List StockStatement)}
    (hledger : db.stockTransactions = Table.empty) (hbalances : db.balances = Table.empty)
    (hreach : Reach transactionProgram (fun _ _ _ => True) (Sys.init db) σ) : Ledger σ.db := by
  have hsettled : Pending [] db := pending_empty hledger hbalances
  have hplaced : Placed db := by
    intro a q hq
    rw [hbalances, Table.find?_empty] at hq
    cases hq
  constructor
  · exact hreach.invariant (fun sts s hs => transaction_conserved
      (Regime.concurrentAssuming_sound _) (Regime.concurrentAssuming_lax _) sts hs) hsettled
  · refine hreach.invariant (fun sts s hs => ?_) hplaced
    exact wp_forEach StockStatement.program (fun _ => Placed) (fun st _ _ hs => statement_placed
      (Regime.concurrentAssuming_sound _) (Regime.concurrentAssuming_lax _) st hs) sts s hs

/-- Stock comes from the vendor and goes to the loss, never the other way. -/
structure OneWay (s : Db) : Prop where
  /-- Nothing moves to the vendor. -/
  vendor : ∀ id x, s.stockTransactions.find? id = some x →
    ∀ i, s.directory.inventory? x.toId = some i → i.type ≠ .virtualVendor
  /-- Nothing moves from the loss. -/
  loss : ∀ id x, s.stockTransactions.find? id = some x →
    ∀ i, s.directory.inventory? x.fromId = some i → i.type ≠ .virtualLoss

/-- A vendor that only gives has no positive balance. -/
theorem vendor_nonpos {s : Db} (h : Ledger s) (hway : OneWay s) {i p : Uuid} {inventory : Inventory}
    (hi : s.directory.inventory? i = some inventory) (hvendor : inventory.type = .virtualVendor) :
    balance s.balances (i, p) ≤ 0 := by
  have hinto : quantityInto s i p = s.stockTransactions.total fun _ _ => 0 := by
    refine Table.total_congr fun id x hx => if_neg ?_
    rintro ⟨rfl, -⟩
    exact hway.vendor id x hx inventory hi hvendor
  have hzero : (s.stockTransactions.total fun _ _ => (0 : ℤ)) = 0 := by
    simp [Table.total]
  have houtof : 0 ≤ quantityOutOf s i p := by
    apply List.sum_nonneg
    intro q hq
    obtain ⟨r, hr, rfl⟩ := List.mem_map.mp hq
    have hpos := (h.settled.rows_ok r.1 r.2 ((Table.mem_rows_iff _ r.1 r.2).mp hr)).1
    dsimp only
    split <;> omega
  have hbalance := h.settled.conserved.balance_eq i p
  omega

/-! ## The balances of some products -/

/-- The balances of some products with the types of their inventories. -/
def held (ok : Product → Bool) (s : Db) : List (InventoryType × ℤ) :=
  ((balanceBaseJoins s).filter fun j => ok j.product).map fun j => (j.inventory.type, j.quantity)

/-- The joined row of a balance. -/
def joinRow (s : Db) (r : (Uuid × Uuid) × ℤ) : Option JoinedBalance := do
  let product ← s.products.find? r.1.2
  let inventory ← s.directory.inventory? r.1.1
  return ⟨r.2, r.1.2, product, inventory⟩

theorem balanceBaseJoins_eq (s : Db) : balanceBaseJoins s = s.balances.rows.filterMap (joinRow s) :=
  rfl

/-- Nothing of some products is created or lost. -/
theorem held_sum {s : Db} (h : Ledger s) (ok : Product → Bool) :
    ((held ok s).map Prod.snd).sum = 0 := by
  have hzero := h.settled.product_total fun p => (s.products.find? p).any ok
  have hrows : ∀ rows : List ((Uuid × Uuid) × ℤ), (∀ r ∈ rows, r ∈ s.balances.rows) →
      (((rows.filterMap (joinRow s)).filter fun j => ok j.product).map
        fun j => j.quantity).sum =
      (rows.map fun r => if (s.products.find? r.1.2).any ok then r.2 else 0).sum := by
    intro rows
    induction rows with
    | nil => exact fun _ => rfl
    | cons r rows ih =>
      intro hmem
      have ih := ih fun r' hr' => hmem r' (List.mem_cons_of_mem _ hr')
      have hstored := (Table.mem_rows_iff _ r.1 r.2).mp (hmem r List.mem_cons_self)
      obtain ⟨i, hi⟩ := Option.isSome_iff_exists.mp (h.placed r.1 r.2 hstored)
      cases hp : s.products.find? r.1.2 with
      | none => simp [joinRow, hp, ← ih]
      | some p =>
        have hjoin : joinRow s r = some ⟨r.2, r.1.2, p, i⟩ := by simp [joinRow, hp, hi]
        rw [List.filterMap_cons_some hjoin]
        cases hok : ok p <;> simp [hp, hok, ← ih]
  have hall := hrows s.balances.rows fun _ hr => hr
  rw [held, List.map_map]
  exact hall.trans hzero

/-- A quantity of the vendor is not positive. -/
theorem held_vendor {s : Db} (h : Ledger s) (hway : OneWay s) (ok : Product → Bool) :
    Bag.amount (held ok s) .virtualVendor ≤ 0 := by
  have hentries : ∀ q ∈ (held ok s).map (fun x => if x.1 = .virtualVendor then x.2 else 0),
      q ≤ 0 := by
    intro q hq
    obtain ⟨x, hx, rfl⟩ := List.mem_map.mp hq
    obtain ⟨j, hj, rfl⟩ := List.mem_map.mp hx
    dsimp only
    split
    · next hvendor =>
      have hjoined := (List.mem_filter.mp hj).1
      rw [balanceBaseJoins_eq, List.mem_filterMap] at hjoined
      obtain ⟨r, hr, hjoin⟩ := hjoined
      obtain ⟨p, -, hjoin⟩ := Option.bind_eq_some_iff.mp hjoin
      obtain ⟨i, hi, hjoin⟩ := Option.bind_eq_some_iff.mp hjoin
      cases hjoin
      have hnonpos := vendor_nonpos (p := r.1.2) h hway hi hvendor
      have hstored := (Table.mem_rows_iff _ r.1 r.2).mp hr
      rwa [balance, hstored, Option.getD_some] at hnonpos
    · exact le_refl 0
  have hsum := List.sum_le_card_nsmul _ 0 hentries
  rwa [nsmul_zero] at hsum

/-- Quantities add up type by type. -/
theorem sum_eq_amounts (m : List (InventoryType × ℤ)) :
    (m.map Prod.snd).sum = Bag.amount m .warehouse + Bag.amount m .courier +
      Bag.amount m .client + Bag.amount m .virtualLoss + Bag.amount m .virtualVendor := by
  induction m with
  | nil => rfl
  | cons x m ih =>
    obtain ⟨type, q⟩ := x
    rw [List.map_cons, List.sum_cons, ih]
    cases type <;> simp [Bag.amount_cons] <;> omega

/-- What the vendor has given is lost or still there. -/
theorem vendor_given {s : Db} (h : Ledger s) (hway : OneWay s) (ok : Product → Bool) :
    ((Bag.amount (held ok s) .virtualVendor).natAbs : ℤ) =
      Bag.amount (held ok s) .warehouse + Bag.amount (held ok s) .courier +
        Bag.amount (held ok s) .client + Bag.amount (held ok s) .virtualLoss := by
  have hsum := held_sum h ok
  have hvendor := held_vendor h hway ok
  rw [sum_eq_amounts] at hsum
  omega

/-! ## The breakdown by product -/

/-- The figure of a breakdown for a type of inventories. -/
def ContainerProductBreakdown.at (p : ContainerProductBreakdown) : InventoryType → ℤ
  | .warehouse => p.atWarehouses
  | .courier => p.atCouriers
  | .client => p.atClients
  | .virtualLoss => p.lost
  | .virtualVendor => 0

/-- The part of a row that a breakdown counts: all but the vendor's. -/
def counted (r : GroupedRow) : ℤ := if r.1.2.2 = .virtualVendor then 0 else r.2

@[simp] theorem set_productId (p : ContainerProductBreakdown) (type : InventoryType) (q : ℤ) :
    (p.set type q).productId = p.productId := by
  cases type <;> rfl

theorem set_at_of_ne (p : ContainerProductBreakdown) {type type' : InventoryType} (q : ℤ)
    (hne : type' ≠ type) : (p.set type q).at type' = p.at type' := by
  cases type <;> cases type' <;> first | rfl | exact absurd rfl hne

/-- A figure that was not yet entered is added to the pieces. -/
theorem set_located (p : ContainerProductBreakdown) (r : GroupedRow) (hunset : p.at r.1.2.2 = 0) :
    (p.set r.1.2.2 r.2).located = p.located + counted r := by
  obtain ⟨⟨pid, name, type⟩, q⟩ := r
  cases type <;> simp only [ContainerProductBreakdown.at] at hunset <;>
    simp [ContainerProductBreakdown.set, ContainerProductBreakdown.located, counted] <;> omega

/-- The figures that some rows will fill are still empty. -/
def Unset (ps : List ContainerProductBreakdown) (rows : List GroupedRow) : Prop :=
  ∀ p ∈ ps, ∀ r ∈ rows, p.productId = r.1.1 → p.at r.1.2.2 = 0

/-- The place a row fills. -/
def place (r : GroupedRow) : Uuid × InventoryType := (r.1.1, r.1.2.2)

/-- One row adds what it counts and fills no other row's place. -/
theorem enter_step (ps : List ContainerProductBreakdown) (r : GroupedRow) (rows : List GroupedRow)
    (hunset : Unset ps (r :: rows)) (hplace : ∀ r' ∈ rows, place r' ≠ place r) :
    (((enter ps r).map ContainerProductBreakdown.located).sum =
      (ps.map ContainerProductBreakdown.located).sum + counted r) ∧ Unset (enter ps r) rows := by
  have hset : ∀ p : ContainerProductBreakdown, p.productId = r.1.1 →
      (∀ r' ∈ rows, p.productId = r'.1.1 → p.at r'.1.2.2 = 0) →
      ∀ r' ∈ rows, (p.set r.1.2.2 r.2).productId = r'.1.1 → (p.set r.1.2.2 r.2).at r'.1.2.2 = 0 := by
    intro p hp hat r' hr' hid
    rw [set_productId] at hid
    have htype : r'.1.2.2 ≠ r.1.2.2 := fun htype =>
      hplace r' hr' (Prod.ext (hid.symm.trans hp) htype)
    rw [set_at_of_ne p r.2 htype]
    exact hat r' hr' hid
  induction ps with
  | nil =>
    let new : ContainerProductBreakdown := { productId := r.1.1, productName := r.1.2.1 }
    have hat : ∀ type, new.at type = 0 := fun type => by cases type <;> rfl
    constructor
    · have hlocated := set_located new r (hat _)
      simp only [enter, List.map_cons, List.map_nil, List.sum_cons, List.sum_nil]
      change (new.set r.1.2.2 r.2).located + 0 = 0 + counted r
      rw [hlocated, show new.located = 0 from rfl, add_zero]
    · intro p hp r' hr' hid
      rw [enter, List.mem_singleton] at hp
      subst hp
      exact hset new rfl (fun _ _ _ => hat _) r' hr' hid
  | cons p ps ih =>
    have hp : ∀ r' ∈ r :: rows, p.productId = r'.1.1 → p.at r'.1.2.2 = 0 :=
      hunset p List.mem_cons_self
    have hps : Unset ps (r :: rows) := fun p' hp' => hunset p' (List.mem_cons_of_mem _ hp')
    obtain ⟨hsum, hrest⟩ := ih hps
    have hp' := fun r' hr' => hp r' (List.mem_cons_of_mem _ hr')
    rw [enter]
    split
    · next hid =>
      have hlocated := set_located p r (hp r List.mem_cons_self hid)
      constructor
      · simp only [List.map_cons, List.sum_cons]
        omega
      · intro x hx r' hr' hxid
        rcases List.mem_cons.mp hx with rfl | hx
        · exact hset p hid hp' r' hr' hxid
        · exact hps x hx r' (List.mem_cons_of_mem _ hr') hxid
    · constructor
      · simp only [List.map_cons, List.sum_cons]
        omega
      · intro x hx r' hr' hxid
        rcases List.mem_cons.mp hx with rfl | hx
        · exact hp' r' hr' hxid
        · exact hrest x hx r' hr' hxid

/-- The breakdowns know of all pieces that the rows count. -/
theorem enter_sum (rows : List GroupedRow) (ps : List ContainerProductBreakdown)
    (hunset : Unset ps rows) (hplaces : (rows.map place).Nodup) :
    ((rows.foldl enter ps).map ContainerProductBreakdown.located).sum =
      (ps.map ContainerProductBreakdown.located).sum + (rows.map counted).sum := by
  induction rows generalizing ps with
  | nil => rw [List.foldl_nil, List.map_nil, List.sum_nil, add_zero]
  | cons r rows ih =>
    rw [List.map_cons, List.nodup_cons] at hplaces
    obtain ⟨hsum, hrest⟩ := enter_step ps r rows hunset fun r' hr' heq =>
      hplaces.1 (heq ▸ List.mem_map.mpr ⟨r', hr', rfl⟩)
    rw [List.foldl_cons, ih _ hrest hplaces.2, hsum, List.map_cons, List.sum_cons, add_assoc]

/-- A product has one name, so grouping by the name too makes no more groups. -/
theorem places_nodup {s : Db} {joined : List JoinedBalance}
    (hjoined : ∀ j ∈ joined, s.products.find? j.productId = some j.product) :
    ((groupedRows joined).map place).Nodup := by
  have hname : ∀ r ∈ groupedRows joined,
      r.1.2.1 = ((s.products.find? r.1.1).map Product.name).getD "" := by
    intro r hr
    have hkey := (Bag.mem_keys_collect _ r.1).mp (List.mem_map.mpr ⟨r, hr, rfl⟩)
    simp only [List.map_map, List.mem_map] at hkey
    obtain ⟨j, hj, hkey⟩ := hkey
    have hproduct := hjoined j hj
    rw [← hkey]
    simp [hproduct]
  have hkeys : ((groupedRows joined).map Prod.fst).Nodup := Bag.nodup_collect _
  rw [List.Nodup, List.pairwise_map] at hkeys ⊢
  refine List.Pairwise.imp_of_mem (fun {r r'} hr hr' hne heq => hne ?_) hkeys
  obtain ⟨hid, htype⟩ := Prod.mk.inj heq
  refine Prod.ext hid (Prod.ext ?_ htype)
  rw [hname r hr, hname r' hr', hid]

/-! ## The figures agree -/

/-- The figures of the container distribution agree. -/
structure ContainerDistribution.Agrees (d : ContainerDistribution) : Prop where
  /-- What came from the vendor is somewhere. -/
  places_eq : d.totalInSystem = d.atWarehouses + d.atCouriers + d.atClients + d.lost
  /-- It is the sum over the products. -/
  products_eq : d.totalInSystem = (d.perProduct.map ContainerProductBreakdown.total).sum

/-- Quantities of grouped rows are those of the joined rows. -/
theorem sum_groupedRows (joined : List JoinedBalance) (ok : InventoryType → Bool) :
    (((groupedRows joined).filter fun r => ok r.1.2.2).map Prod.snd).sum =
      ((joined.filter fun j => ok j.inventory.type).map fun j => j.quantity).sum := by
  have hcollect := Bag.sum_collect (joined.map fun j =>
    ((j.productId, j.product.name, j.inventory.type), j.quantity)) fun k => ok k.2.2
  rw [List.filter_map, List.map_map] at hcollect
  exact hcollect

/-- Quantities of one type of inventories. -/
theorem sum_of_type (joined : List JoinedBalance) (type : InventoryType) :
    ((joined.filter fun j => j.inventory.type = type).map fun j => j.quantity).sum =
      Bag.amount (joined.map fun j => (j.inventory.type, j.quantity)) type := by
  induction joined with
  | nil => rfl
  | cons j joined ih =>
    rw [List.map_cons, Bag.amount_cons, ← ih]
    by_cases hj : j.inventory.type = type
    · rw [List.filter_cons_of_pos (by simp [hj]), List.map_cons, List.sum_cons, if_pos hj]
    · rw [List.filter_cons_of_neg (by simp [hj]), if_neg hj, zero_add]

/-- All rows but the vendor's are counted. -/
theorem sum_counted (joined : List JoinedBalance) :
    ((groupedRows joined).map counted).sum = (joined.map fun j => j.quantity).sum -
      Bag.amount (joined.map fun j => (j.inventory.type, j.quantity)) .virtualVendor := by
  have hfilter : ∀ rows : List GroupedRow, (rows.map counted).sum =
      ((rows.filter fun r => decide (r.1.2.2 ≠ .virtualVendor)).map Prod.snd).sum := by
    intro rows
    induction rows with
    | nil => rfl
    | cons r rows ih =>
      rw [List.map_cons, List.sum_cons, ih]
      by_cases hr : r.1.2.2 = .virtualVendor <;> simp [counted, hr]
  rw [hfilter, sum_groupedRows joined fun type => decide (type ≠ .virtualVendor), ← sum_of_type]
  induction joined with
  | nil => rfl
  | cons j joined ih =>
    by_cases hj : j.inventory.type = .virtualVendor
    · simp only [List.filter_cons, hj, ne_eq, not_true_eq_false, decide_false, decide_true,
        if_true, Bool.false_eq_true, if_false, List.map_cons, List.sum_cons] at ih ⊢
      omega
    · simp only [List.filter_cons, hj, ne_eq, not_false_eq_true, decide_false, decide_true,
        if_true, Bool.false_eq_true, if_false, List.map_cons, List.sum_cons] at ih ⊢
      omega

/-- The container distribution agrees in every ledger in which the vendor only gives. -/
theorem containerDistribution_agrees {s : Db} (h : Ledger s) (hway : OneWay s) :
    (getContainerDistribution s).Agrees := by
  let ok : Product → Bool := fun p => p.type = .container
  let joined := (balanceBaseJoins s).filter fun j => ok j.product
  have hgiven := vendor_given h hway ok
  have hjoined : ∀ j ∈ joined, s.products.find? j.productId = some j.product := by
    intro j hj
    have hj := (List.mem_filter.mp hj).1
    rw [balanceBaseJoins_eq, List.mem_filterMap] at hj
    obtain ⟨r, -, hjoin⟩ := hj
    obtain ⟨p, hp, hjoin⟩ := Option.bind_eq_some_iff.mp hjoin
    obtain ⟨i, -, hjoin⟩ := Option.bind_eq_some_iff.mp hjoin
    cases hjoin
    exact hp
  have hlocated := enter_sum (groupedRows joined) [] (fun p hp => absurd hp List.not_mem_nil)
    (places_nodup hjoined)
  rw [List.map_nil, List.sum_nil, zero_add, sum_counted] at hlocated
  have hsum : (joined.map fun j => j.quantity).sum = 0 := by
    have hsum := held_sum h ok
    rwa [held, List.map_map] at hsum
  have hvendor := held_vendor h hway ok
  constructor
  · simp only [getContainerDistribution, Bag.lookup_collect]
    exact hgiven
  · simp only [getContainerDistribution, Bag.lookup_collect, List.map_map]
    change ((Bag.amount (held ok s) .virtualVendor).natAbs : ℤ) =
      (((groupedRows joined).foldl enter []).map ContainerProductBreakdown.located).sum
    change _ = _ - Bag.amount (held ok s) .virtualVendor at hlocated
    omega

/-- The virtual accounts are in order in every ledger in which the vendor only gives. -/
theorem virtualAccounts_ok {s : Db} (h : Ledger s) (hway : OneWay s) (today : ℤ) :
    (getVirtualAccounts today s).integrityOk = true ∧
      (getVirtualAccounts today s).integrityDiff = 0 := by
  have hgiven := vendor_given h hway fun _ => true
  have hheld : held (fun _ => true) s =
      (balanceBaseJoins s).map fun j => (j.inventory.type, j.quantity) := by
    rw [held, List.filter_true]
  rw [hheld] at hgiven
  have htypes : ∀ types : List InventoryType,
      ((byProduct (groupedRows (balanceBaseJoins s)) types).map Prod.snd).sum =
        (((balanceBaseJoins s).filter fun j => j.inventory.type ∈ types).map
          fun j => j.quantity).sum := by
    intro types
    rw [byProduct, List.map_map, ← sum_groupedRows _ fun type => decide (type ∈ types)]
    rfl
  have hvendor := htypes [.virtualVendor]
  have hloss := htypes [.virtualLoss]
  have hreal := htypes realTypes
  simp only [List.mem_singleton, sum_of_type] at hvendor hloss
  have hthree : (((balanceBaseJoins s).filter fun j => j.inventory.type ∈ realTypes).map
      fun j => j.quantity).sum =
      Bag.amount ((balanceBaseJoins s).map fun j => (j.inventory.type, j.quantity)) .warehouse +
      Bag.amount ((balanceBaseJoins s).map fun j => (j.inventory.type, j.quantity)) .courier +
      Bag.amount ((balanceBaseJoins s).map fun j => (j.inventory.type, j.quantity)) .client := by
    induction balanceBaseJoins s with
    | nil => rfl
    | cons j joined ih =>
      cases hj : j.inventory.type <;>
        simp [realTypes, hj, Bag.amount_cons] at ih ⊢ <;> omega
  have hdiff : (getVirtualAccounts today s).integrityDiff = 0 := by
    simp only [getVirtualAccounts, hvendor, hloss, hreal, hthree]
    omega
  exact ⟨decide_eq_true hdiff, hdiff⟩

/-- In every state that the trigger leads to and in which the vendor only gives
and the loss only takes, the dashboard's figures agree. -/
theorem dashboard_agrees {db : Db} {σ : Sys schema (List StockStatement)}
    (hledger : db.stockTransactions = Table.empty) (hbalances : db.balances = Table.empty)
    (hreach : Reach transactionProgram (fun _ _ _ => True) (Sys.init db) σ) (hway : OneWay σ.db)
    (today : ℤ) :
    ((getVirtualAccounts today σ.db).integrityOk = true ∧
      (getVirtualAccounts today σ.db).integrityDiff = 0) ∧
      (getContainerDistribution σ.db).Agrees := by
  have hstate := ledger_of_reach hledger hbalances hreach
  exact ⟨virtualAccounts_ok hstate hway today, containerDistribution_agrees hstate hway⟩

/-- The vendor, a warehouse, a courier and the loss, and one kind of bottle. -/
def sampleBottles : Db :=
  { StockConservation.sampleDb with
    directory := ⟨[⟨1, some 0, .virtualVendor, true, "vendor"⟩, ⟨2, some 5, .warehouse, true, "main"⟩,
      ⟨3, some 6, .courier, true, "van"⟩, ⟨4, some 0, .virtualLoss, true, "loss"⟩], []⟩
    products := ⟨[(7, ⟨.container, "bottle", 0, none, true⟩)], by decide⟩ }

/-- Ten bottles are taken in, four are loaded, and one of these breaks. -/
def bottleMoves : List (ReadCommitted.Action (List StockStatement)) :=
  let move (transfer movement fromId toId : Uuid) (type : TransferType) (quantity : ℤ) :
      List StockStatement :=
    [.insertTransfer transfer ⟨fromId, toId, type, .completed, 9, some 9, none, none, []⟩,
      .insert [(movement, ⟨transfer, 7, fromId, toId, quantity, 0⟩)]]
  let alone (t : ℕ) (statements : List StockStatement) :=
    [ReadCommitted.Action.start t statements] ++ List.replicate 9 (.step t) ++ [.commit t]
  alone 0 (move 11 21 1 2 .initialBalance 10) ++ alone 1 (move 12 22 2 3 .courierLoad 4) ++
    alone 2 (move 13 23 3 4 .lossWriteOff 1)

theorem dashboard_agrees_sample :
    ∃ σ, bottleMoves.foldlM (Sys.exec transactionProgram) (Sys.init sampleBottles) = some σ ∧
      getContainerDistribution σ.db = ⟨6, 3, 0, 1, 10, [⟨7, "bottle", 6, 3, 0, 1, 10⟩]⟩ ∧
      ((getVirtualAccounts 0 σ.db).integrityOk = true ∧
        (getVirtualAccounts 0 σ.db).integrityDiff = 0) ∧ (getContainerDistribution σ.db).Agrees := by
  have heval : (bottleMoves.foldlM (Sys.exec transactionProgram) (Sys.init sampleBottles)).map
      (fun σ => (getContainerDistribution σ.db, σ.db.stockTransactions.rows.all fun r =>
        (σ.db.directory.inventory? r.2.toId).all (fun i => i.type ≠ .virtualVendor) &&
          (σ.db.directory.inventory? r.2.fromId).all fun i => i.type ≠ .virtualLoss)) =
      some (⟨6, 3, 0, 1, 10, [⟨7, "bottle", 6, 3, 0, 1, 10⟩]⟩, true) := by decide +kernel
  obtain ⟨σ, hrun, heval⟩ := Option.map_eq_some_iff.mp heval
  obtain ⟨hfigures, hroutes⟩ := Prod.mk.inj heval
  have hrow : ∀ id x, σ.db.stockTransactions.find? id = some x →
      (∀ i, σ.db.directory.inventory? x.toId = some i → i.type ≠ .virtualVendor) ∧
        ∀ i, σ.db.directory.inventory? x.fromId = some i → i.type ≠ .virtualLoss := by
    intro id x hx
    have hchecked := List.all_eq_true.mp hroutes (id, x) ((Table.mem_rows_iff _ id x).mpr hx)
    rw [Bool.and_eq_true] at hchecked
    constructor
    · intro i hi
      have hto := hchecked.1
      rw [hi] at hto
      exact of_decide_eq_true hto
    · intro i hi
      have hfrom := hchecked.2
      rw [hi] at hfrom
      exact of_decide_eq_true hfrom
  have hway : OneWay σ.db := ⟨fun id x hx => (hrow id x hx).1, fun id x hx => (hrow id x hx).2⟩
  exact ⟨σ, hrun, hfigures, dashboard_agrees rfl rfl (Reach.of_actions _ hrun) hway 0⟩

end Munavvar.Dashboard
