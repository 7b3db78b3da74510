import Munavvar.ArchivedUsers
import Munavvar.Bootstrap
import Munavvar.LedgerKeeping
import Munavvar.SystemRole
import Munavvar.Transports

/-!
# What the commands do to the tables

A command enters users, accounts and inventories, gives inventories other names
and owners, or deletes one that nothing refers to. A command of the client
service may also run a transaction. Whatever these parts keep, every command of
the company keeps, and so does the start.
-/

namespace Munavvar.RegistryKeeping

open Munavvar.KeyedTable
open Munavvar.EnsureSteps
open Munavvar.Transaction
open Munavvar.Invariance
open Munavvar.Database
open Munavvar.StockLedger
open Munavvar.ClientService
open Munavvar.UserService
open Munavvar.ClientEffects
open Munavvar.UserEffects
open Munavvar.SystemRole (UserRequest)
open Munavvar.WarehouseNames
open Munavvar.Transports
open Munavvar.Bootstrap
open Munavvar.LedgerKeeping

/-! ## Commands -/

/-- The commands that write users, accounts and inventories. -/
inductive Command
  | user (env : Env) (q : UserRequest)
  | register (env : Env) (data : UserClientCreate)
  | courier (env : Env) (data : CourierCreate)
  | archive (id : Uuid)
  | warehouse (op : WarehouseOperation)
  | transport (op : TransportOperation)
  | start (env : Env) (c : Settings)

/-- A command on the tables beside the identities and passwords. -/
def onTables (r : UserRegistry) (result : Except Err Db) : Except Err UserRegistry :=
  result.map fun db => { r with db := db }

section Run

variable (ilike : String → String → Bool) (scan : List Inventory → List Inventory)

/-- The effect of a command. -/
def Command.run : Command → UserRegistry → Except Err UserRegistry
  | .user env q, r => q.run env r
  | .register env data, r => beside r (registerClient env data r.toRegistry)
  | .courier env data, r => createCourier env data r
  | .archive id, r => (ArchivedUsers.archive id r).map Prod.snd
  | .warehouse op, r => onTables r (op.run ilike scan r.db)
  | .transport op, r => onTables r (op.run r.db)
  | .start env c, r => initData env c r

end Run

theorem onTables_eq_ok {r r' : UserRegistry} {result : Except Err Db}
    (h : onTables r result = .ok r') : result = .ok r'.db := by
  cases result with
  | error e => cases h
  | ok db =>
    cases h
    rfl

/-! ## What is kept -/

/-- The tables with one more account, which has no money. -/
def openAccount (a : Account) (s : Db) : Db :=
  { s with
    directory := { s.directory with accounts := s.directory.accounts ++ [a] }
    accountBalances := s.accountBalances.put a.id (some 0) }

/-- What every command keeps: it is kept by each part of one. -/
structure Registering (I : Db → Prop) : Prop where
  /-- A user is written. -/
  user : ∀ s id u, I s → I { s with users := s.users.put id (some u) }
  /-- An account is opened. -/
  account : ∀ s a, s.directory.account? a.id = none → I s → I (openAccount a s)
  /-- An inventory is entered. -/
  inventory : ∀ s i, s.directory.inventory? i.id = none → I s →
    I (withInventories (s.directory.inventories ++ [i]) s)
  /-- Inventories are rewritten; their types stay. -/
  rewrite : ∀ s f, (∀ i : Inventory, (f i).id = i.id ∧ (f i).type = i.type) → I s →
    I (withInventories (s.directory.inventories.map f) s)
  /-- An inventory that is not virtual and that nothing refers to is deleted. -/
  delete : ∀ s id i, s.directory.inventory? id = some i → i.type ≠ .virtualVendor →
    i.type ≠ .virtualLoss → Unreferenced id s → I s → I (withoutInventory id s)
  /-- A command of the client service. -/
  client : ∀ env (op : ClientOperation) r r', I r.db → op.run env r = .ok r' → I r'.db

namespace Registering

variable {I J : Db → Prop}

/-- Two things that are kept are kept together. -/
theorem and (h : Registering I) (h' : Registering J) : Registering fun s => I s ∧ J s where
  user s id u hs := ⟨h.user s id u hs.1, h'.user s id u hs.2⟩
  account s a ha hs := ⟨h.account s a ha hs.1, h'.account s a ha hs.2⟩
  inventory s i hi hs := ⟨h.inventory s i hi hs.1, h'.inventory s i hi hs.2⟩
  rewrite s f hf hs := ⟨h.rewrite s f hf hs.1, h'.rewrite s f hf hs.2⟩
  delete s id i hi hv hl hu hs := ⟨h.delete s id i hi hv hl hu hs.1, h'.delete s id i hi hv hl hu hs.2⟩
  client env op r r' hr hrun := ⟨h.client env op r r' hr.1 hrun, h'.client env op r r' hr.2 hrun⟩

end Registering

/-! ## The client service -/

section Client

variable {I : Db → Prop} {r r' : Registry}
  (huser : ∀ s id u, I s → I { s with users := s.users.put id (some u) })
  (haccount : ∀ s a, s.directory.account? a.id = none → I s → I (openAccount a s))
  (hinventory : ∀ s i, s.directory.inventory? i.id = none → I s →
    I (withInventories (s.directory.inventories ++ [i]) s))

include huser in
theorem addUser_keeps {id : Uuid} {u : User} (h : addUser id u r = .ok r') (hr : I r.db) :
    I r'.db := by
  simp only [addUser, bind_eq_ok, require_eq_ok] at h
  obtain ⟨-, -, -, -, h⟩ := h
  cases h
  exact huser _ _ _ hr

theorem addLocal_keeps {id : Uuid} {phone : String} (h : addLocal id phone r = .ok r')
    (hr : I r.db) : I r'.db := by
  simp only [addLocal, bind_eq_ok, require_eq_ok] at h
  obtain ⟨-, -, -, -, h⟩ := h
  cases h
  exact hr

include haccount in
theorem createAccount_keeps {id userId : Uuid} {type : AccountType} {name : String} {now : ℤ}
    (h : createAccount id userId type name now r = .ok r') (hr : I r.db) : I r'.db := by
  simp only [createAccount, bind_eq_ok, require_eq_ok, Option.isNone_iff_eq_none] at h
  obtain ⟨-, -, -, hfresh, h⟩ := h
  cases h
  exact haccount r.db ⟨id, userId, type, true, now, name⟩ hfresh hr

include haccount in
/-- A client's account is an account. -/
theorem addAccount_keeps {id userId : Uuid} {name : String} {now : ℤ}
    (h : addAccount id userId name now r = .ok r') (hr : I r.db) : I r'.db := by
  have hcreate : createAccount id userId .client name now r = .ok r' := h
  exact createAccount_keeps haccount hcreate hr

include hinventory in
theorem addInventory_keeps {id userId : Uuid} {name : String}
    (h : addInventory id userId name r = .ok r') (hr : I r.db) : I r'.db := by
  simp only [addInventory, bind_eq_ok, require_eq_ok, Option.isNone_iff_eq_none] at h
  obtain ⟨-, -, -, hfresh, h⟩ := h
  cases h
  exact hinventory r.db ⟨id, some userId, .client, true, name⟩ hfresh hr

include huser in
theorem addClient_keeps {env : Env} {username : String} {role : Role} {phone : Option String}
    (h : addClient env username role phone r = .ok r') (hr : I r.db) : I r'.db := by
  obtain ⟨r₁, hadd, h⟩ := bind_eq_ok.mp h
  have hr₁ := addUser_keeps huser hadd hr
  cases phone with
  | none =>
    cases h
    exact hr₁
  | some phone => exact addLocal_keeps h hr₁

/-- A transaction of a command runs alone. -/
theorem runOn_keeps {p : Uow Unit} (hp : Keeps Regime.serial I p) (h : runOn p r = .ok r')
    (hr : I r.db) : I r'.db := by
  obtain ⟨u, hrun⟩ := runOn_ok h
  have hwp := hp r.db hr
  rw [wp_serial_iff, hrun] at hwp
  exact hwp

include huser haccount hinventory in
/-- The commands of the client service keep what their parts and their transactions keep. -/
theorem client_of
    (hfirst : ∀ env data creatorId, Keeps Regime.serial I (firstMovements env data creatorId))
    (hstart : ∀ env data, Keeps Regime.serial I (startingTare env data)) (env : Env)
    (op : ClientOperation) (r r' : Registry) (hr : I r.db) (h : op.run env r = .ok r') :
    I r'.db := by
  cases op with
  | createClient data =>
    obtain ⟨-, -, h⟩ := bind_eq_ok.mp h
    obtain ⟨r₁, hclient, h⟩ := bind_eq_ok.mp h
    obtain ⟨r₂, hopen, h⟩ := bind_eq_ok.mp h
    have hr₂ := addAccount_keeps haccount hopen (addClient_keeps huser hclient hr)
    split at h
    · exact addInventory_keeps hinventory h hr₂
    · cases h
      exact hr₂
  | createClientInventory clientId name =>
    obtain ⟨-, -, h⟩ := bind_eq_ok.mp h
    exact addInventory_keeps hinventory h hr
  | onboardClientWithBalance data creatorId =>
    obtain ⟨-, -, h⟩ := bind_eq_ok.mp h
    obtain ⟨r₁, hclient, h⟩ := bind_eq_ok.mp h
    obtain ⟨r₂, hopen, h⟩ := bind_eq_ok.mp h
    obtain ⟨r₃, henter, h⟩ := bind_eq_ok.mp h
    have hr₂ := addAccount_keeps haccount hopen (addClient_keeps huser hclient hr)
    exact runOn_keeps (hfirst _ _ _) h (addInventory_keeps hinventory henter hr₂)
  | registerClient data =>
    obtain ⟨-, -, h⟩ := bind_eq_ok.mp h
    obtain ⟨r₁, hclient, h⟩ := bind_eq_ok.mp h
    obtain ⟨r₂, hopen, h⟩ := bind_eq_ok.mp h
    obtain ⟨r₃, henter, h⟩ := bind_eq_ok.mp h
    have hr₂ := addAccount_keeps haccount hopen (addClient_keeps huser hclient hr)
    exact runOn_keeps (hstart _ _) h (addInventory_keeps hinventory henter hr₂)

include huser haccount hinventory in
/-- What every service keeps too. -/
theorem client_of_bookkeeping (hbook : Bookkeeping Regime.serial I) (env : Env)
    (op : ClientOperation) (r r' : Registry) (hr : I r.db) (h : op.run env r = .ok r') : I r'.db :=
  client_of huser haccount hinventory hbook.firstMovements hbook.startingTare env op r r' hr h

end Client

/-! ## All commands -/

namespace Registering

variable {I : Db → Prop} (h : Registering I) {r r' : UserRegistry} {env : Env}

include h

theorem ensureCourierAccount {userId : Uuid} {u : User} {r r' : Registry}
    (hrun : UserService.ensureCourierAccount env userId u r = .ok r') (hr : I r.db) : I r'.db := by
  unfold UserService.ensureCourierAccount at hrun
  split at hrun
  · split at hrun
    · exact createAccount_keeps h.account hrun hr
    · cases hrun
      exact hr
    · cases hrun
  · cases hrun
    exact hr

theorem registerLocalUser {schema : UserAdminCreate}
    (hrun : UserService.registerLocalUser env schema r = .ok r') (hr : I r.db) : I r'.db := by
  obtain ⟨-, -, hrun⟩ := bind_eq_ok.mp hrun
  obtain ⟨r₁, huser, hrun⟩ := bind_eq_ok.mp hrun
  obtain ⟨r₂, hlocal, hrun⟩ := bind_eq_ok.mp hrun
  obtain ⟨r₃, haccount, hrun⟩ := bind_eq_ok.mp hrun
  cases hrun
  exact h.ensureCourierAccount haccount (addLocal_keeps hlocal (addUser_keeps h.user huser hr))

theorem createCourier {data : CourierCreate}
    (hrun : UserService.createCourier env data r = .ok r') (hr : I r.db) : I r'.db := by
  obtain ⟨-, -, hrun⟩ := bind_eq_ok.mp hrun
  obtain ⟨r₁, huser, hrun⟩ := bind_eq_ok.mp hrun
  obtain ⟨r₂, hlocal, hrun⟩ := bind_eq_ok.mp hrun
  obtain ⟨r₃, haccount, hrun⟩ := bind_eq_ok.mp hrun
  cases hrun
  exact createAccount_keeps h.account haccount (addLocal_keeps hlocal (addUser_keeps h.user huser hr))

theorem update {id : Uuid} {schema : UserAdminUpdate}
    (hrun : UserService.update env id schema r = .ok r') (hr : I r.db) : I r'.db := by
  obtain ⟨-, -, hrun⟩ := bind_eq_ok.mp hrun
  obtain ⟨user, -, hrun⟩ := bind_eq_ok.mp hrun
  obtain ⟨current, -, hrun⟩ := bind_eq_ok.mp hrun
  obtain ⟨-, -, hrun⟩ := bind_eq_ok.mp hrun
  obtain ⟨⟨u, r₁⟩, hwrite, hrun⟩ := bind_eq_ok.mp hrun
  obtain ⟨r₂, hidentity, hrun⟩ := bind_eq_ok.mp hrun
  obtain ⟨r₃, haccount, hrun⟩ := bind_eq_ok.mp hrun
  cases hrun
  have hr₁ : I r₁.db := by
    unfold writeUser at hwrite
    split at hwrite
    · simp only [updateUser, bind_eq_ok, require_eq_ok] at hwrite
      obtain ⟨-, -, role, -, isActive, -, username, -, hwrite⟩ := hwrite
      cases hwrite
      exact h.user _ _ _ hr
    · cases hwrite
      exact hr
  have hr₂ : I r₂.db := by
    rw [writeIdentity_db hidentity]
    exact hr₁
  exact h.ensureCourierAccount haccount hr₂

theorem archive {id : Uuid} {archived : Bool}
    (hrun : ArchivedUsers.archive id r = .ok (archived, r')) (hr : I r.db) : I r'.db := by
  obtain ⟨-, -, hrun⟩ := bind_eq_ok.mp hrun
  split at hrun
  · cases hrun
    exact h.user _ _ _ hr
  · cases hrun
    exact hr

theorem clientBeside (op : ClientOperation) (hrun : beside r (op.run env r.toRegistry) = .ok r')
    (hr : I r.db) : I r'.db := by
  obtain ⟨registry, hclient, rfl⟩ := beside_eq_ok hrun
  exact h.client env op r.toRegistry registry hr hclient

theorem request {q : UserRequest} (hrun : q.run env r = .ok r') (hr : I r.db) : I r'.db := by
  cases q with
  | createUser schema => exact h.registerLocalUser hrun hr
  | updateUser currentAdmin userId schema =>
    obtain ⟨-, -, hrun⟩ := bind_eq_ok.mp hrun
    obtain ⟨-, -, hrun⟩ := bind_eq_ok.mp hrun
    exact h.update hrun hr
  | createClient data => exact h.clientBeside (.createClient data) hrun hr
  | onboardClient currentAdmin data =>
    exact h.clientBeside (.onboardClientWithBalance data currentAdmin) hrun hr
  | createClientInventory clientId name =>
    exact h.clientBeside (.createClientInventory clientId name) hrun hr
  | updateClient clientId schema => exact h.update hrun hr

theorem warehouse {ilike : String → String → Bool} {scan : List Inventory → List Inventory}
    {op : WarehouseOperation} {s s' : Db} (hrun : op.run ilike scan s = .ok s') (hs : I s) : I s' := by
  cases op with
  | createWarehouse env schema =>
    obtain ⟨existing, -, hrun⟩ := bind_eq_ok.mp hrun
    obtain ⟨-, -, hrun⟩ := bind_eq_ok.mp hrun
    simp only [bind_eq_ok, require_eq_ok, Option.isNone_iff_eq_none] at hrun
    obtain ⟨-, hfresh, -, -, hrun⟩ := hrun
    cases hrun
    exact h.inventory s ⟨_, some schema.userId, .warehouse, true, schema.name⟩ hfresh hs
  | updateWarehouse id schema =>
    dsimp only [WarehouseOperation.run, updateWarehouse] at hrun
    split at hrun
    · cases hrun
      exact hs
    · split at hrun
      · cases hrun
        exact hs
      · simp only [writeWarehouse, bind_eq_ok, require_eq_ok] at hrun
        obtain ⟨-, -, name, -, userId, -, -, -, hrun⟩ := hrun
        cases hrun
        refine h.rewrite s _ (fun i => ?_) hs
        split <;> exact ⟨rfl, rfl⟩
  | archiveWarehouse id =>
    dsimp only [WarehouseOperation.run, archiveWarehouse] at hrun
    split at hrun
    · cases hrun
      exact hs
    · cases hrun
      refine h.rewrite s _ (fun i => ?_) hs
      split <;> exact ⟨rfl, rfl⟩

theorem transport {op : TransportOperation} {s s' : Db} (hrun : op.run s = .ok s') (hs : I s) :
    I s' := by
  cases run_moves hrun with
  | same => exact hs
  | enter id userId name hfresh => exact h.inventory s ⟨id, some userId, .courier, true, name⟩ hfresh hs
  | rewrite id i name userId hi =>
    refine h.rewrite s _ (fun i => ?_) hs
    split <;> exact ⟨rfl, rfl⟩
  | delete id i hi hvendor hloss hrefs => exact h.delete s id i hi hvendor hloss hrefs hs

/-! ### The start -/

theorem ensureAccount {id userId : Uuid} {type : AccountType} {name : String} {now : ℤ}
    (hrun : Bootstrap.ensureAccount id userId type name now r = .ok r') (hr : I r.db) :
    I r'.db := by
  rcases findOrMake_ok hrun with ⟨-, hmade⟩ | ⟨-, rfl⟩
  · obtain ⟨registry, haccount, rfl⟩ := beside_eq_ok hmade
    exact createAccount_keeps h.account haccount hr
  · exact hr

theorem ensureSystemRows {userId : Uuid}
    (hrun : Bootstrap.ensureSystemRows env userId r = .ok r') (hr : I r.db) : I r'.db := by
  obtain ⟨r₁, haccounts, hinventories⟩ := andThen_ok.mp hrun
  have haccounts : I r.db → I r₁.db :=
    inTurn_relation (R := fun r r' : UserRegistry => I r.db → I r'.db) (fun _ hr => hr)
      (fun _ _ _ hf hg hr => hg (hf hr)) (fun x _ _ _ hstep hr => h.ensureAccount hstep hr) haccounts
  have hinventories : I r₁.db → I r'.db := by
    refine inTurn_relation (R := fun r r' : UserRegistry => I r.db → I r'.db) (fun _ hr => hr)
      (fun _ _ _ hf hg hr => hg (hf hr)) (fun x _ s s' hstep hs => ?_) hinventories
    rcases findOrMake_ok hstep with ⟨-, hmade⟩ | ⟨-, rfl⟩
    · simp only [addVirtualInventory, bind_eq_ok, require_eq_ok, Option.isNone_iff_eq_none] at hmade
      obtain ⟨-, -, -, hfresh, hmade⟩ := hmade
      cases hmade
      exact h.inventory s.db ⟨_, some userId, x.1.1, true, x.1.2⟩ hfresh hs
    · exact hs
  exact hinventories (haccounts hr)

theorem ensureWalkin (hrun : Bootstrap.ensureWalkin env r = .ok r') (hr : I r.db) : I r'.db := by
  rcases findOrMake_ok hrun with ⟨-, hmade⟩ | ⟨-, rfl⟩
  · obtain ⟨r₁, huser, hmade⟩ := bind_eq_ok.mp hmade
    obtain ⟨r₂, hlocal, hmade⟩ := bind_eq_ok.mp hmade
    obtain ⟨r₃, hinventory, hmade⟩ := bind_eq_ok.mp hmade
    obtain ⟨r₄, haccount, hmade⟩ := bind_eq_ok.mp hmade
    cases hmade
    have hr₂ := addLocal_keeps hlocal (addUser_keeps h.user huser hr)
    exact createAccount_keeps h.account haccount (addInventory_keeps h.inventory hinventory hr₂)
  · exact hr

theorem ensureAdmin {c : Settings} (hrun : Bootstrap.ensureAdmin env c r = .ok r') (hr : I r.db) :
    I r'.db := by
  unfold Bootstrap.ensureAdmin at hrun
  split at hrun
  · unfold ensureAdminWith at hrun
    split at hrun
    · obtain ⟨r₃, hadmin, haccount⟩ := andThen_ok.mp hrun
      obtain ⟨r₁, huser, hadmin⟩ := bind_eq_ok.mp hadmin
      obtain ⟨r₂, hlocal, hadmin⟩ := bind_eq_ok.mp hadmin
      cases hadmin
      exact h.ensureAccount haccount (addLocal_keeps hlocal (addUser_keeps h.user huser hr))
    · exact h.ensureAccount hrun hr
  · cases hrun
    exact hr

theorem start {c : Settings} (hrun : initData env c r = .ok r') (hr : I r.db) : I r'.db := by
  obtain ⟨r₁, hsystem, hrun⟩ := andThen_ok.mp hrun
  obtain ⟨r₂, hrows, hrun⟩ := andThen_ok.mp hrun
  obtain ⟨r₃, hwalkin, hadmin⟩ := andThen_ok.mp hrun
  have hr₁ : I r₁.db := by
    rcases findOrMake_ok hsystem with ⟨-, hmade⟩ | ⟨-, rfl⟩
    · obtain ⟨registry, huser, rfl⟩ := beside_eq_ok hmade
      exact addUser_keeps h.user huser hr
    · exact hr
  exact h.ensureAdmin hadmin (h.ensureWalkin hwalkin (h.ensureSystemRows hrows hr₁))

/-- Every command. -/
theorem command {ilike : String → String → Bool} {scan : List Inventory → List Inventory}
    {c : Command} (hrun : c.run ilike scan r = .ok r') (hr : I r.db) : I r'.db := by
  cases c with
  | user env q => exact h.request hrun hr
  | register env data => exact h.clientBeside (.registerClient data) hrun hr
  | courier env data => exact h.createCourier hrun hr
  | archive id =>
    dsimp only [Command.run] at hrun
    cases harchive : ArchivedUsers.archive id r with
    | error e =>
      rw [harchive] at hrun
      cases hrun
    | ok x =>
      rw [harchive] at hrun
      cases hrun
      exact h.archive harchive hr
  | warehouse op => exact h.warehouse (onTables_eq_ok hrun) hr
  | transport op => exact h.transport (onTables_eq_ok hrun) hr
  | start env c => exact h.start hrun hr

end Registering

end Munavvar.RegistryKeeping
