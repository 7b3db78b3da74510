import Munavvar.Company
import Munavvar.StockEffects

/-!
# The effect of the client service

A command first enrols: users, accounts and at most one inventory of type
CLIENT are entered, and every other table stays. What it does then is a
transaction that runs alone.
-/

namespace Munavvar.ClientEffects

open Munavvar.KeyedTable
open Munavvar.Transaction
open Munavvar.Transaction.Prog
open Munavvar.Database
open Munavvar.Statements
open Munavvar.StockLedger
open Munavvar.OrderQueries
open Munavvar.OrderService
open Munavvar.ClientService
open Munavvar.OrderChanges (OrderOk)
open Munavvar.OrderEffects
open Munavvar.StockEffects

/-- Users and accounts were entered, and possibly an inventory. -/
structure Enrolled (s s' : Db) (new : Option Inventory) : Prop where
  /-- The other tables stay. -/
  same : ∃ users accountBalances directory,
    s' = { s with users := users, accountBalances := accountBalances, directory := directory }
  /-- The inventory is the last one. -/
  inventories_eq : s'.directory.inventories = s.directory.inventories ++ new.toList
  /-- It is one of a client and has an identifier of its own. -/
  new_client : ∀ i ∈ new, i.type = .client ∧ s.directory.inventory? i.id = none

theorem Enrolled.refl (s : Db) : Enrolled s s none where
  same := ⟨_, _, _, rfl⟩
  inventories_eq := (List.append_nil _).symm
  new_client i hi := absurd hi (by simp)

/-- An inventory is entered after users and accounts. -/
theorem Enrolled.trans {s s₁ s₂ : Db} {new : Option Inventory} (h : Enrolled s s₁ none)
    (h' : Enrolled s₁ s₂ new) : Enrolled s s₂ new := by
  obtain ⟨users, balances, directory, rfl⟩ := h.same
  obtain ⟨users', balances', directory', rfl⟩ := h'.same
  have hsame : directory.inventories = s.directory.inventories :=
    h.inventories_eq.trans (List.append_nil _)
  refine ⟨⟨_, _, _, rfl⟩, ?_, fun i hi => ?_⟩
  · rw [h'.inventories_eq]
    exact congrArg (· ++ _) hsame
  · obtain ⟨htype, hfresh⟩ := h'.new_client i hi
    refine ⟨htype, ?_⟩
    rw [Directory.inventory?, ← hsame]
    exact hfresh

/-- An inventory that was there is still found. -/
theorem Enrolled.inventory? {s s' : Db} {new : Option Inventory} (h : Enrolled s s' new)
    {id : Uuid} {i : Inventory} (hi : s.directory.inventory? id = some i) :
    s'.directory.inventory? id = some i := by
  rw [Directory.inventory?] at hi
  rw [Directory.inventory?, h.inventories_eq, List.find?_append, hi, Option.some_or]

/-- The entered inventory is found. -/
theorem Enrolled.inventory?_new {s s' : Db} {i : Inventory} (h : Enrolled s s' (some i)) :
    s'.directory.inventory? i.id = some i := by
  have hfresh := (h.new_client i rfl).2
  rw [Directory.inventory?] at hfresh
  rw [Directory.inventory?, h.inventories_eq, List.find?_append, hfresh, Option.none_or]
  simp

/-- Identifiers of inventories stay different. -/
theorem Enrolled.nodup {s s' : Db} {new : Option Inventory} (h : Enrolled s s' new)
    (hs : (s.directory.inventories.map Inventory.id).Nodup) :
    (s'.directory.inventories.map Inventory.id).Nodup := by
  rw [h.inventories_eq, List.map_append]
  cases new with
  | none => simpa using hs
  | some i =>
    have hfresh := (h.new_client i rfl).2
    rw [Directory.inventory?, List.find?_eq_none] at hfresh
    refine List.Nodup.append hs (List.nodup_singleton _) ?_
    intro id hid hid'
    obtain ⟨j, hj, rfl⟩ := List.mem_map.mp hid
    exact hfresh j hj (by simpa using hid')

/-! ## Parts of a command -/

section Parts

variable {r r' : Registry} {α β : Type}

theorem bind_eq_ok {x : Except Err α} {f : α → Except Err β} {b : β} :
    x >>= f = .ok b ↔ ∃ a, x = .ok a ∧ f a = .ok b := by
  cases x with
  | ok a => simp [Bind.bind, Except.bind]
  | error e => simp [Bind.bind, Except.bind]

theorem require_eq_ok {passes : Bool} {e : Err} {u : Unit} :
    require passes e = .ok u ↔ passes = true := by
  cases passes <;> simp [require]

theorem setNotNull_ok {α : Type} {column : String} {current value : α}
    {field : Option (Option α)} (h : setNotNull column current field = .ok value) :
    (field.getD (some current)).getD current = value := by
  unfold setNotNull at h
  split at h
  · cases h
    rfl
  · cases h
  · cases h
    rfl

theorem addUser_enrolled {id : Uuid} {user : User} (h : addUser id user r = .ok r') :
    Enrolled r.db r'.db none := by
  simp only [addUser, bind_eq_ok, require_eq_ok] at h
  obtain ⟨-, -, -, -, h⟩ := h
  cases h
  refine ⟨⟨_, _, _, rfl⟩, (List.append_nil _).symm, fun i hi => absurd hi (by simp)⟩

theorem addLocal_enrolled {id : Uuid} {phone : String} (h : addLocal id phone r = .ok r') :
    Enrolled r.db r'.db none := by
  simp only [addLocal, bind_eq_ok, require_eq_ok] at h
  obtain ⟨-, -, -, -, h⟩ := h
  cases h
  exact .refl _

theorem addAccount_enrolled {id userId : Uuid} {name : String} {now : ℤ}
    (h : addAccount id userId name now r = .ok r') : Enrolled r.db r'.db none := by
  simp only [addAccount, bind_eq_ok, require_eq_ok] at h
  obtain ⟨-, -, -, -, h⟩ := h
  cases h
  refine ⟨⟨_, _, _, rfl⟩, (List.append_nil _).symm, fun i hi => absurd hi (by simp)⟩

theorem addInventory_enrolled {id userId : Uuid} {name : String}
    (h : addInventory id userId name r = .ok r') :
    Enrolled r.db r'.db (some ⟨id, some userId, .client, true, name⟩) := by
  simp only [addInventory, bind_eq_ok, require_eq_ok] at h
  obtain ⟨-, -, -, hfresh, h⟩ := h
  cases h
  refine ⟨⟨_, _, _, rfl⟩, rfl, fun i hi => ?_⟩
  cases hi
  exact ⟨rfl, Option.isNone_iff_eq_none.mp hfresh⟩

theorem addClient_enrolled {env : Env} {username : String} {role : Role} {phone : Option String}
    (h : addClient env username role phone r = .ok r') : Enrolled r.db r'.db none := by
  obtain ⟨r₁, huser, h⟩ := bind_eq_ok.mp h
  have hfirst := addUser_enrolled huser
  cases phone with
  | none =>
    cases h
    exact hfirst
  | some phone => exact hfirst.trans (addLocal_enrolled h)

theorem runOn_ok {p : Uow Unit} (h : runOn p r = .ok r') : ∃ u, p.run r.db = .ok (u, r'.db) := by
  obtain ⟨⟨u, db⟩, hrun, h⟩ := bind_eq_ok.mp h
  cases h
  exact ⟨u, hrun⟩

end Parts

/-! ## Commands -/

/-- What a command does after enrolling. -/
def followUp (env : Env) : ClientOperation → Uow Unit
  | .createClient _ => ret ()
  | .createClientInventory _ _ => ret ()
  | .onboardClientWithBalance data creatorId => firstMovements env data creatorId
  | .registerClient data => startingTare env data

/-- The inventory that an onboarding and a registration make for the new user. -/
def OwnInventory (env : Env) (new : Option Inventory) : ClientOperation → Prop
  | .createClient _ => True
  | .createClientInventory _ _ => True
  | .onboardClientWithBalance _ _ | .registerClient _ =>
    ∃ name, new = some ⟨env.uuid 0 2, some (env.uuid 0 0), .client, true, name⟩

/-- A command that succeeds enrols and then runs its transaction. -/
theorem run_ok {env : Env} {op : ClientOperation} {r r' : Registry} (h : op.run env r = .ok r') :
    ∃ s new u, Enrolled r.db s new ∧ OwnInventory env new op ∧
      (followUp env op).run s = .ok (u, r'.db) := by
  cases op with
  | createClient data =>
    obtain ⟨-, -, h⟩ := bind_eq_ok.mp h
    obtain ⟨r₁, hclient, h⟩ := bind_eq_ok.mp h
    obtain ⟨r₂, haccount, h⟩ := bind_eq_ok.mp h
    have hfirst := (addClient_enrolled hclient).trans (addAccount_enrolled haccount)
    split at h
    · exact ⟨_, _, (), hfirst.trans (addInventory_enrolled h), trivial, rfl⟩
    · cases h
      exact ⟨_, _, (), hfirst, trivial, rfl⟩
  | createClientInventory clientId name =>
    obtain ⟨-, -, h⟩ := bind_eq_ok.mp h
    exact ⟨_, _, (), addInventory_enrolled h, trivial, rfl⟩
  | onboardClientWithBalance data creatorId =>
    obtain ⟨-, -, h⟩ := bind_eq_ok.mp h
    obtain ⟨r₁, hclient, h⟩ := bind_eq_ok.mp h
    obtain ⟨r₂, haccount, h⟩ := bind_eq_ok.mp h
    obtain ⟨r₃, hinventory, h⟩ := bind_eq_ok.mp h
    obtain ⟨u, hrun⟩ := runOn_ok h
    have hfirst := (addClient_enrolled hclient).trans (addAccount_enrolled haccount)
    exact ⟨_, _, u, hfirst.trans (addInventory_enrolled hinventory), ⟨_, rfl⟩, hrun⟩
  | registerClient data =>
    obtain ⟨-, -, h⟩ := bind_eq_ok.mp h
    obtain ⟨r₁, hclient, h⟩ := bind_eq_ok.mp h
    obtain ⟨r₂, haccount, h⟩ := bind_eq_ok.mp h
    obtain ⟨r₃, hinventory, h⟩ := bind_eq_ok.mp h
    obtain ⟨u, hrun⟩ := runOn_ok h
    have hfirst := (addClient_enrolled hclient).trans (addAccount_enrolled haccount)
    exact ⟨_, _, u, hfirst.trans (addInventory_enrolled hinventory), ⟨_, rfl⟩, hrun⟩

/-- What a command leads to: what its transaction does after enrolling. -/
theorem run_wp {env : Env} {op : ClientOperation} {r r' : Registry} {Q : Db → Prop}
    (h : op.run env r = .ok r')
    (hQ : ∀ s new, Enrolled r.db s new → OwnInventory env new op →
      wp Regime.serial (followUp env op) (fun _ s' => Q s') (fun _ => True) s) : Q r'.db := by
  obtain ⟨s, new, u, henrolled, hown, hrun⟩ := run_ok h
  exact wp_serial_run (hQ s new henrolled hown) hrun

/-! ## Transactions -/

/-- The first order of an onboarding. -/
structure FirstOrder (env : Env) (order : OnboardingOrder) (o : Order) : Prop where
  /-- It is the new client's. -/
  clientId_eq : o.clientId = env.uuid 0 0
  /-- It goes to the new inventory. -/
  clientInventoryId_eq : o.clientInventoryId = env.uuid 0 2
  /-- Any way of payment is accepted. -/
  paymentMethod_eq : o.paymentMethod = order.paymentMethod
  /-- No contract is looked up. -/
  contractId_eq : o.contractId = none
  /-- No quota is reserved. -/
  quantitiesReserved_eq : o.quantitiesReserved = false
  /-- It is new. -/
  status_eq : o.status = .new
  /-- Its log is empty. -/
  statusLogs_eq : o.statusLogs = []
  /-- The lines satisfy their constraints. -/
  items_ok : ∀ i ∈ o.items, LineOk i
  /-- It is delivered. -/
  saleType_eq : o.saleType = .delivery
  /-- The lines are those that were asked for. -/
  products_eq : o.items.map OrderItem.productId = order.items.map Prod.fst
  /-- Nobody is assigned. -/
  courierId_eq : o.courierId = none

/-- A first order is in order: it holds no quota. -/
theorem FirstOrder.orderOk {env : Env} {order : OnboardingOrder} {o : Order}
    (h : FirstOrder env order o) : OrderOk o := by
  constructor
  · rw [h.quantitiesReserved_eq, Order.contract?, h.contractId_eq]
    simp
  · exact h.items_ok

section Rules

variable {R : Regime schema} {E : Err → Prop} {s : Db}

/-- A first order is stored with its lines. -/
theorem wp_firstOrder (ht : Tame R E) (env : Env) (order : OnboardingOrder) {Q : Unit → Db → Prop}
    (hQ : ∀ orders o, s.orders.find? (env.uuid 2 0) = none → FirstOrder env order o →
      s.orders.Written orders (env.uuid 2 0) (some o) → Q () { s with orders }) :
    wp R (firstOrder env (env.uuid 0 0) (env.uuid 0 2) order) Q E s := by
  rw [firstOrder, wp_bind]
  refine wp_reads ht (availableProducts_quiet _) fun products => ?_
  dsimp only
  rw [wp_bind]
  refine wp_insertOrder ht fun hfresh => ?_
  -- after some rounds the order is that of the lines added so far
  refine wp_loop (fun done s' => ∃ orders o, s' = { s with orders } ∧
    FirstOrder env { order with items := done.map OrderItem.pair } o ∧
    s.orders.Written orders (env.uuid 2 0) (some o)) ?_ ?_ ?_
  · refine ⟨_, _, rfl, ⟨rfl, rfl, rfl, rfl, rfl, rfl, rfl, ?_, rfl, rfl, rfl⟩,
      s.orders.written_put _ _⟩
    exact fun i hi => absurd hi List.not_mem_nil
  · rintro done item todo _ - ⟨orders, o, rfl, ho, hwritten⟩
    refine wp_addOrderItems ht hwritten.find?_self fun hitem => ?_
    refine ⟨_, { o with items := o.items ++ [item] }, rfl,
      ⟨ho.clientId_eq, ho.clientInventoryId_eq, ho.paymentMethod_eq, ho.contractId_eq,
        ho.quantitiesReserved_eq, ho.status_eq, ho.statusLogs_eq, ?_, ho.saleType_eq, ?_,
        ho.courierId_eq⟩, hwritten.put _⟩
    · intro i hi
      rcases List.mem_append.mp hi with hi | hi
      · exact ho.items_ok i hi
      · exact hitem i hi
    · have hproducts := ho.products_eq
      dsimp only at hproducts ⊢
      rw [List.map_append, hproducts, List.map_append, List.map_append]
      rfl
  · rintro _ ⟨orders, o, rfl, ho, hwritten⟩
    have hitems : (order.items.map fun i =>
        (⟨i.1, i.2, priceMap products none i.1⟩ : OrderItem)).map OrderItem.pair = order.items := by
      rw [List.map_map]
      exact List.map_id _
    rw [hitems] at ho
    exact hQ orders o hfresh ho hwritten

/-- What an onboarding does to the orders: nothing, or it stores the first order. -/
inductive FirstOrdered (env : Env) (data : ClientOnboardingRequest) (t t' : Table Uuid Order) :
    Prop
  /-- No order was asked for. -/
  | none (horder : data.order = none) (horders : t' = t)
  /-- The first order is stored. -/
  | some (order : OnboardingOrder) (o : Order) (horder : data.order = some order)
      (hfresh : t.find? (env.uuid 2 0) = none) (ho : FirstOrder env order o)
      (horders : t.Written t' (env.uuid 2 0) (some o))

/-- The transaction of an onboarding moves stock and stores the first order. -/
theorem wp_firstMovements (ht : Tame R E) (env : Env) (data : ClientOnboardingRequest)
    (creatorId : Uuid) {Q : Unit → Db → Prop}
    (hQ : ∀ balances stockTransfers stockTransactions orders,
      FirstOrdered env data s.orders orders →
      Q () { s with balances, stockTransfers, stockTransactions, orders }) :
    wp R (firstMovements env data creatorId) Q E s := by
  have hquiet : Quiet StockStmt (Prog.whenever (S := schema) (0 < data.initialBalanceQuantity) <|
      whenSome data.initialBalanceProductId fun p =>
        StockService.enterInitialBalance env 1 (env.uuid 0 2) [(p, data.initialBalanceQuantity)]
          creatorId) :=
    (within_whenever _ _).mpr fun _ => (within_whenSome _ _).mpr fun _ _ =>
      enterInitialBalance_quiet _ _ _ _ _
  rw [firstMovements, wp_bind]
  refine wp_stock ht hquiet fun _ b st sx => ?_
  rw [wp_whenSome]
  refine ⟨fun order horder => ?_, fun horder => hQ b st sx s.orders (.none horder rfl)⟩
  refine wp_firstOrder ht env order fun orders o hfresh ho hwritten => ?_
  exact hQ b st sx orders (.some order o horder hfresh ho hwritten)

/-- A registration moves stock and nothing else. -/
theorem startingTare_quiet (env : Env) (data : UserClientCreate) :
    Quiet StockStmt (startingTare env data) :=
  (within_whenSome _ _).mpr fun _ _ => (within_whenSome _ _).mpr fun _ _ =>
    enterInitialBalance_quiet _ _ _ _ _

/-- What a command does to the orders. -/
def OrdersAfter (env : Env) (t t' : Table Uuid Order) : ClientOperation → Prop
  | .onboardClientWithBalance data _ => FirstOrdered env data t t'
  | _ => t' = t

/-- The transaction of a command moves stock and possibly stores a first order. -/
theorem wp_followUp (ht : Tame R E) (env : Env) (op : ClientOperation) {Q : Unit → Db → Prop}
    (hQ : ∀ balances stockTransfers stockTransactions orders, OrdersAfter env s.orders orders op →
      Q () { s with balances, stockTransfers, stockTransactions, orders }) :
    wp R (followUp env op) Q E s := by
  cases op with
  | createClient data => exact hQ _ _ _ _ rfl
  | createClientInventory clientId name => exact hQ _ _ _ _ rfl
  | onboardClientWithBalance data creatorId => exact wp_firstMovements ht env data creatorId hQ
  | registerClient data =>
    exact wp_stock ht (startingTare_quiet env data) fun _ b st sx => hQ b st sx s.orders rfl

end Rules

end Munavvar.ClientEffects
