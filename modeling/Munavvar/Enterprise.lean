import Munavvar.Catalog
import Munavvar.CompanyBooks
import Munavvar.MixedRuns
import Munavvar.StockRoutes

/-!
# The company as a whole

All services work on one database: orders, contracts, stock, payments and the
catalog run as concurrent transactions, and users, accounts and inventories are
entered by commands, of which the start of the program is one. Runs begin with
an empty database.
-/

namespace Munavvar.Enterprise

open Munavvar.KeyedTable
open Munavvar.Transaction
open Munavvar.Transaction.Prog
open Munavvar.Invariance
open Munavvar.MixedRuns
open Munavvar.Database
open Munavvar.StockLedger
open Munavvar.ClientService
open Munavvar.UserService
open Munavvar.StockService (validRoutes)
open Munavvar.Company (ServiceRequest)
open Munavvar.PaymentDesk
open Munavvar.Headers
open Munavvar.StockRoutes
open Munavvar.WarehouseNames (withInventories)
open Munavvar.Transports
open Munavvar.LedgerKeeping
open Munavvar.RegistryKeeping
open Munavvar.CompanyBooks
open Munavvar.Dashboard (Ledger OneWay)

/-! ## What is served -/

/-- What runs as a transaction. -/
inductive Work
  /-- An operation on orders, contracts, prices, invoices, products or stock. -/
  | service (r : ServiceRequest)
  /-- An operation of the payment desk. -/
  | payment (env : Env) (op : PaymentOperation)
  /-- The deletion of a product. -/
  | hardDelete (productId : Uuid)

/-- The transaction of an operation. -/
def Work.program : Work → Uow Unit
  | .service r => Company.program r
  | .payment env op => op.program env
  | .hardDelete productId => Catalog.hardDelete productId

/-- Who signs in with which number, and which numbers have a password. -/
abbrev SignIns := List (String × Uuid) × List String

/-- The tables and the sign-ins. -/
def registryOf (x : Db × SignIns) : UserRegistry := ⟨⟨x.1, x.2.1⟩, x.2.2⟩

/-- The company's services; `admits` says which operations are asked for. -/
def enterprise (ilike : String → String → Bool) (scan : List Inventory → List Inventory)
    (admits : Work → Directory → Bool) : Services schema Work Command SignIns where
  program := Work.program
  command c x := match c.run ilike scan (registryOf x) with
    | .ok r => some (r.db, r.identities, r.passwords)
    | .error _ => none
  admits := admits
  admitsCommand _ _ := true

/-- A database without rows. -/
def emptyDb : Db where
  directory := ⟨[], []⟩
  users := Table.empty
  products := Table.empty
  contracts := Table.empty
  priceItems := Table.empty
  orders := Table.empty
  accountBalances := Table.empty
  balances := Table.empty
  stockTransfers := Table.empty
  stockTransactions := Table.empty
  transactions := Table.empty
  invoices := Table.empty

/-- Nothing is there. -/
def nothing : World schema Work SignIns := World.init (emptyDb, [], [])

/-! ## A run -/

/-- The time and identifiers of the `n`-th request. -/
def requestEnv (n : ℕ) : Env := ⟨n, fun i j => 10000 * (n + 1) + 100 * i + j⟩

theorem office_phone : ∀ p ∈ some "998901112233", 1 ≤ p.length := by
  intro p hp
  rw [Option.mem_some_iff] at hp
  rw [← hp]
  decide

theorem office_client : Role.clientB2B = .clientB2C ∨ Role.clientB2B = .clientB2B := .inr rfl

theorem office_reachable : Role.clientB2B = .clientB2C → (some "998901112233").isSome = true :=
  fun _ => rfl

/-- A company client with one address. -/
def office : ClientCreate :=
  ⟨"office", some "998901112233", .clientB2B, some "office", office_client, office_phone,
    office_reachable⟩

/-- Two bottles. -/
def twoBottles : StockService.CapitalizeTaraItem := ⟨7, 2, Operations.two_pieces⟩

theorem positive_amount : 0 < (50 : ℤ) := by omega

theorem ground_length : 3 ≤ "payment".length ∧ "payment".length ≤ 255 := by decide

/-- The office pays in cash. -/
def cashPayment : AcceptPayment :=
  ⟨20000, 50, "cash", "payment", none, positive_amount, ground_length⟩

/-- The program starts, a client and a kind of bottles are entered, two bottles
are found with the client, and the client pays. -/
def firstDays : List (Event Work Command) :=
  [.command (.start (requestEnv 0) ⟨some "998900000001", some "secret"⟩),
    .command (.user (requestEnv 1) (.createClient office))] ++
  served 0 (.service (.operation
    ⟨requestEnv 2, .updateProduct 7 ⟨.container, "bottle", 0, none, true⟩⟩)) 1 ++
  served 1 (.service (.stock (requestEnv 3) (.capitalizeTaraForClient 20000 [twoBottles] 0))) 14 ++
  served 2 (.payment (requestEnv 4) (.acceptPayment cashPayment 0)) 9

/-- The bottles of the office, its debt, and the company's cash. -/
def officeBooks (w : World schema Work SignIns) : ℤ × ℤ × ℤ :=
  (DoubleEntry.balance w.sys.db.balances (20002, 7),
    DoubleEntry.balance w.sys.db.accountBalances 20001,
    DoubleEntry.balance w.sys.db.accountBalances 10101)

/-! ## Parts away from the ledgers -/

/-- Statements on the catalog. -/
def OnCatalog : (k : Key) → Stmt k → Prop
  | .product _, _ => True
  | _, _ => False

theorem hardDelete_onCatalog (productId : Uuid) :
    Within (S := schema) OnCatalog (fun _ => True) (Catalog.hardDelete productId) := by
  refine within_bind (within_ask _) fun product => ?_
  refine within_bind ((within_raiseIf _ _).mpr fun _ => trivial) fun _ => ?_
  refine within_bind (within_ask _) fun stocked => ?_
  refine within_bind ((within_raiseIf _ _).mpr fun _ => trivial) fun _ => ?_
  refine within_bind (within_ask _) fun associated => ?_
  refine within_bind ((within_raiseIf _ _).mpr fun _ => trivial) fun _ => ?_
  refine within_bind ((within_execute _ _).mpr trivial) fun _ => ?_
  exact within_bind (within_ask _) fun violated => (within_whenSome _ _).mpr fun _ _ => trivial

/-- Whatever every service keeps, every transaction keeps. -/
theorem work_keeps {R : Regime schema} {I : Db → Prop} (h : Bookkeeping R I) (op : Work) :
    Keeps R I op.program := by
  cases op with
  | service r => exact h.service r
  | payment env op => exact h.payment env op
  | hardDelete productId =>
    refine h.keeps_elsewhere ((hardDelete_onCatalog productId).mono (fun k st hst => ?_) fun _ _ =>
      trivial)
    cases k <;> first | exact hst.elim | trivial

section Runs

variable {ilike : String → String → Bool} {scan : List Inventory → List Inventory}
  {admits : Work → Directory → Bool} {w : World schema Work SignIns}

/-- What the transactions that are admitted and the commands keep holds in every run. -/
theorem reachable_kept {I : Db → Prop}
    (hwork : ∀ op s, I s → admits op s.directory = true →
      wp Regime.concurrent op.program (fun _ s' => I s') (fun _ => True) s)
    (hcommand : Registering I) (hempty : I emptyDb)
    (h : (enterprise ilike scan admits).Reachable nothing w) : I w.sys.db := by
  refine h.invariant (I := fun x => I x.1) (fun op s e hs hop => hwork op s hs hop) ?_ hempty
  intro c x x' hx _ hrun
  dsimp only [enterprise] at hrun
  split at hrun
  · next r hr =>
    cases hrun
    exact hcommand.command hr hx
  · cases hrun

/-- What every service and every command keep holds in every run. -/
theorem reachable_books {I : Db → Prop} (hbook : Bookkeeping Regime.concurrent I)
    (hcommand : Registering I) (hempty : I emptyDb)
    (h : (enterprise ilike scan admits).Reachable nothing w) : I w.sys.db :=
  reachable_kept (fun op s hs _ => work_keeps hbook op s hs) hcommand hempty h

/-! ## The books -/

theorem ledger_emptyDb : Ledger emptyDb :=
  ⟨StockConservation.pending_empty rfl rfl, fun _ _ hq => by cases hq⟩

theorem settled_emptyDb : Settled emptyDb := by
  have hopened : AccountConservation.Opened emptyDb := by
    constructor
    · rfl
    · exact fun _ hid => by cases hid
    · exact fun _ _ hb => by cases hb
  exact ⟨hopened.pending, fun _ _ hb => by cases hb⟩

theorem reachable_ledger (h : (enterprise ilike scan admits).Reachable nothing w) :
    Ledger w.sys.db :=
  reachable_books (ledger_bookkeeping (Regime.concurrentAssuming_sound _)
    (Regime.concurrentAssuming_lax _)) ledger_registering ledger_emptyDb h

theorem reachable_settled (h : (enterprise ilike scan admits).Reachable nothing w) :
    Settled w.sys.db :=
  reachable_books (settled_bookkeeping (Regime.concurrentAssuming_sound _)
    (Regime.concurrentAssuming_lax _)) settled_registering settled_emptyDb h

theorem reachable_filed (h : (enterprise ilike scan admits).Reachable nothing w) :
    Filed w.sys.db :=
  reachable_books (filed_bookkeeping (Regime.concurrentAssuming_lax _)) filed_registering
    (fun _ _ hx => by cases hx) h

/-- The books of the company are in order. -/
structure InOrder (s : Db) : Prop where
  /-- Stock is conserved, and its balances are those of the movements. -/
  stock : StockConservation.Conserved s
  /-- Money is conserved, and its balances are those of the completed transactions. -/
  money : AccountConservation.Conserved s
  /-- Every movement is one of a transfer between the same inventories. -/
  filed : Filed s

/-- In every run of the company, whatever is asked for and in whatever order,
the books are in order. -/
theorem books_in_order (h : (enterprise ilike scan fun _ _ => true).Reachable nothing w) :
    InOrder w.sys.db where
  stock := (reachable_ledger h).settled.conserved
  money := (reachable_settled h).settled.conserved
  filed := reachable_filed h

theorem books_in_order_sample :
    ∃ w, firstDays.foldlM (enterprise (fun a b => a = b) id fun _ _ => true).execIf nothing = some w ∧
      officeBooks w = (2, -50, 50) ∧ InOrder w.sys.db := by
  have heval : (firstDays.foldlM (enterprise (fun a b => a = b) id fun _ _ => true).execIf
      nothing).map officeBooks = some (2, -50, 50) := by decide +kernel
  obtain ⟨w, hrun, hbooks⟩ := Option.map_eq_some_iff.mp heval
  exact ⟨w, hrun, hbooks, books_in_order (Services.Reachable.of_events _ hrun)⟩

/-! ## The routes -/

/-- The identifiers of inventories stay different, and types stay for the
inventories of orders and transfers. -/
theorem routesKept_of_types {s s' : Db} (h : RoutesKept s) (kept : Uuid → Prop)
    (hnodup : (s'.directory.inventories.map Inventory.id).Nodup) (horders : s'.orders = s.orders)
    (htransfers : s'.stockTransfers = s.stockTransfers)
    (hfor : ∀ n o, s.orders.find? n = some o → kept o.clientInventoryId)
    (hends : ∀ n x, s.stockTransfers.find? n = some x → kept x.fromId ∧ kept x.toId)
    (htypes : ∀ i t, kept i → HasType s.directory i t → HasType s'.directory i t) :
    RoutesKept s' := by
  refine ⟨hnodup, fun k => ?_⟩
  cases k with
  | order id =>
    intro o ho
    change s'.orders.find? id = some o at ho
    rw [horders] at ho
    exact htypes _ _ (hfor id o ho) (h.rows (.order id) o ho)
  | stockTransfer id =>
    intro x hx
    change s'.stockTransfers.find? id = some x at hx
    rw [htransfers] at hx
    obtain ⟨hfrom, hto⟩ := hends id x hx
    obtain ⟨source, hsource, target, htarget, hi, hj⟩ := h.rows (.stockTransfer id) x hx
    exact ⟨source, hsource, target, htarget, htypes _ _ hfrom hi, htypes _ _ hto hj⟩
  | _ => trivial

/-- Inventories that are left alone keep to the routes. -/
theorem routesKept_of_same {s s' : Db} (h : RoutesKept s)
    (hinventories : s'.directory.inventories = s.directory.inventories)
    (horders : s'.orders = s.orders) (htransfers : s'.stockTransfers = s.stockTransfers) :
    RoutesKept s' := by
  refine routesKept_of_types h (fun _ => True) ?_ horders htransfers (fun _ _ _ => trivial)
    (fun _ _ _ => ⟨trivial, trivial⟩) fun i t _ ht => ?_
  · rw [hinventories]
    exact h.nodup
  · rw [HasType, Directory.inventory?, hinventories]
    exact ht

/-- Every command keeps to the routes. -/
theorem routesKept_registering : Registering RoutesKept where
  user s id u hs := routesKept_of_same hs rfl rfl rfl
  account s a _ hs := routesKept_of_same hs rfl rfl rfl
  inventory s i hfresh hs := by
    refine routesKept_of_types hs (fun _ => True) ?_ rfl rfl (fun _ _ _ => trivial)
      (fun _ _ _ => ⟨trivial, trivial⟩) fun j t _ ht => ?_
    · change ((s.directory.inventories ++ [i]).map Inventory.id).Nodup
      rw [List.map_append, List.map_singleton]
      refine hs.nodup.append (List.nodup_singleton _) (List.disjoint_singleton.mpr fun hmem => ?_)
      obtain ⟨x, hx, hid⟩ := List.mem_map.mp hmem
      have hnone := List.find?_eq_none.mp hfresh x hx
      exact hnone (decide_eq_true hid)
    · obtain ⟨x, hx, hxt⟩ := ht
      refine ⟨x, ?_, hxt⟩
      exact List.find?_append.trans (by rw [← Directory.inventory?, hx, Option.some_or])
  rewrite s f hf hs := by
    refine routesKept_of_types hs (fun _ => True) ?_ rfl rfl (fun _ _ _ => trivial)
      (fun _ _ _ => ⟨trivial, trivial⟩) fun j t _ ht => ?_
    · change ((s.directory.inventories.map f).map Inventory.id).Nodup
      have hids : (s.directory.inventories.map f).map Inventory.id =
          s.directory.inventories.map Inventory.id := by
        rw [List.map_map]
        exact List.map_congr_left fun i _ => (hf i).1
      rw [hids]
      exact hs.nodup
    · obtain ⟨x, hx, hxt⟩ := ht
      refine ⟨f x, ?_, (hf x).2.trans hxt⟩
      exact (inventory?_map hf).trans (congrArg (Option.map f) hx)
  delete s id i _ _ _ hrefs hs := by
    refine routesKept_of_types hs (fun j => j ≠ id) ?_ rfl rfl (fun n o ho => (hrefs.orders n o ho).1)
      hrefs.transfers fun j t hne ht => ?_
    · exact (List.filter_sublist.map Inventory.id).nodup hs.nodup
    · obtain ⟨x, hx, hxt⟩ := ht
      exact ⟨x, (inventory?_filter hne).trans hx, hxt⟩
  client env op r r' hr hrun := client_routesKept hr hrun

/-- Statements that leave orders and transfers alone. -/
def Unrouted : (k : Key) → Stmt k → Prop
  | .order _, _ => False
  | .stockTransfer _, _ => False
  | _, _ => True

/-- An order is not requested for an inventory of another type than CLIENT. -/
def forClients : Work → Directory → Bool
  | .service r, d => forClientInventory r d
  | _, _ => true

/-- Every transaction that is admitted keeps to the routes. -/
theorem work_routesKept {s : Db} (hs : RoutesKept s) (op : Work)
    (hop : forClients op s.directory = true) :
    wp Regime.concurrent op.program (fun _ s' => RoutesKept s') (fun _ => True) s := by
  have hunrouted : ∀ {p : Uow Unit}, Within (S := schema) Unrouted (fun _ => True) p →
      Keeps Regime.concurrent RoutesKept p := by
    intro p hp
    refine keeps_within (Regime.concurrentAssuming_lax _) (fun s k st r hst hs _ => ?_) hp
    cases k <;> first | exact hst.elim | exact routesKept_of_same hs rfl rfl rfl
  cases op with
  | service r => exact program_routesKept hs r hop
  | payment env op =>
    refine hunrouted ((payment_onAccounts env op).mono (fun k st hst => ?_) fun _ _ => trivial) s hs
    cases k <;> first | exact hst.elim | trivial
  | hardDelete productId =>
    refine hunrouted ((hardDelete_onCatalog productId).mono (fun k st hst => ?_) fun _ _ => trivial)
      s hs
    cases k <;> first | exact hst.elim | trivial

theorem reachable_routesKept (h : (enterprise ilike scan forClients).Reachable nothing w) :
    RoutesKept w.sys.db := by
  refine reachable_kept (fun op s hs hop => work_routesKept hs op hop) routesKept_registering ?_ h
  refine ⟨List.nodup_nil, fun k => ?_⟩
  cases k with
  | order id => exact fun o ho => by cases ho
  | stockTransfer id => exact fun x hx => by cases hx
  | _ => trivial

/-! ## The dashboard -/

/-- No transfer goes to the vendor. -/
theorem vendor_not_target (type : TransferType) : InventoryType.virtualVendor ∉ (validRoutes type).2 := by
  cases type <;> decide

/-- No transfer comes from the loss. -/
theorem loss_not_source (type : TransferType) : InventoryType.virtualLoss ∉ (validRoutes type).1 := by
  cases type <;> decide

/-- Along the routes stock comes from the vendor and goes to the loss. -/
theorem oneWay_of_routes {s : Db} (hroutes : RoutesKept s) (hfiled : Filed s) : OneWay s := by
  constructor
  · intro id x hx i hi htype
    obtain ⟨t, ht, -, hto⟩ := hfiled id x hx
    obtain ⟨_, -, target, htarget, -, j, hj, hjt⟩ := hroutes.allowed _ t ht
    rw [hto, hi, Option.some.injEq] at hj
    rw [← hjt, ← hj, htype] at htarget
    exact vendor_not_target _ htarget
  · intro id x hx i hi htype
    obtain ⟨t, ht, hfrom, -⟩ := hfiled id x hx
    obtain ⟨source, hsource, _, -, ⟨j, hj, hjt⟩, -⟩ := hroutes.allowed _ t ht
    rw [hfrom, hi, Option.some.injEq] at hj
    rw [← hjt, ← hj, htype] at hsource
    exact loss_not_source _ hsource

end Runs

end Munavvar.Enterprise
