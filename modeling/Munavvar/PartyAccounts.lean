import Munavvar.UserEffects
import Munavvar.StatusLog

/-!
# The accounts of the parties

A delivery is settled between the account of its client and, if it is paid in
cash, that of its courier. Whoever becomes a courier gets an account. Whoever is
registered as a client or is made one by an update does not, so a client's order
can be accepted and delivered and then not be settled. Where no command makes a
client in that way, all clients and couriers have one account each.
-/

namespace Munavvar.PartyAccounts

open Munavvar.KeyedTable
open Munavvar.Transaction
open Munavvar.Transaction.Prog
open Munavvar.Database
open Munavvar.Statements
open Munavvar.StockLedger
open Munavvar.OrderQueries
open Munavvar.OrderService
open Munavvar.Fulfillment
open Munavvar.StockService
open Munavvar.ClientService
open Munavvar.UserService
open Munavvar.UserEffects
open Munavvar.Operations (Request)
open Munavvar.OrderChanges
open Munavvar.Footprints
open Munavvar.OrderEffects
open Munavvar.ContractEffects
open Munavvar.Company (ServiceRequest program)
open Munavvar.StockEffects
open Munavvar.ClientEffects

/-- A person or a company. -/
def isClientRole (role : Role) : Bool := role = .clientB2B || role = .clientB2C

/-- All accounts belong to users, and clients and couriers have one each. -/
structure Provided (s : Db) : Prop where
  /-- The owner of an account is a foreign key. -/
  owned : ∀ a ∈ s.directory.accounts, (s.users.find? a.userId).isSome = true
  /-- A client has one active account. -/
  client : ∀ id u, s.users.find? id = some u → isClientRole u.role = true →
    (activeAccounts s.directory id .client).length = 1
  /-- A courier has one active account. -/
  courier : ∀ id u, s.users.find? id = some u → u.role = .courier →
    (activeAccounts s.directory id .courier).length = 1

/-- Clients and couriers stay provided if the user that is written is. -/
theorem Provided.enter {s s' : Db} {id : Uuid} {u : User} {opened : List Account} (h : Provided s)
    (he : Enters s s' id u opened)
    (hclient : isClientRole u.role = true →
      (activeAccounts s.directory id .client).length + (ofType opened .client).length = 1)
    (hcourier : u.role = .courier →
      (activeAccounts s.directory id .courier).length + (ofType opened .courier).length = 1) :
    Provided s' where
  owned a ha := by
    rw [he.accounts_eq] at ha
    rw [he.users_eq]
    by_cases hid : a.userId = id
    · rw [hid, Table.find?_put_self]
      rfl
    · rcases List.mem_append.mp ha with ha | ha
      · rw [Table.find?_put_ne _ hid]
        exact h.owned a ha
      · exact absurd (he.own a ha).1 hid
  client j x hj hx := by
    rw [he.users_eq] at hj
    rw [he.activeAccounts_eq, List.length_append]
    by_cases hid : j = id
    · subst hid
      rw [Table.find?_put_self] at hj
      cases hj
      rw [if_pos rfl]
      exact hclient hx
    · rw [Table.find?_put_ne _ hid] at hj
      rw [if_neg hid]
      exact h.client j x hj hx
  courier j x hj hx := by
    rw [he.users_eq] at hj
    rw [he.activeAccounts_eq, List.length_append]
    by_cases hid : j = id
    · subst hid
      rw [Table.find?_put_self] at hj
      cases hj
      rw [if_pos rfl]
      exact hcourier hx
    · rw [Table.find?_put_ne _ hid] at hj
      rw [if_neg hid]
      exact h.courier j x hj hx

/-- A new user has no account yet. -/
theorem Provided.activeAccounts_new {s : Db} (h : Provided s) {id : Uuid}
    (hfresh : s.users.find? id = none) (accountType : AccountType) :
    activeAccounts s.directory id accountType = [] := by
  rw [activeAccounts, List.filter_eq_nil_iff]
  intro a ha hmatch
  have hmatch : (a.userId = id ∧ a.type = accountType) ∧ a.isActive = true := by
    simpa using hmatch
  have howned := h.owned a ha
  rw [hmatch.1.1, hfresh] at howned
  cases howned

theorem Provided.congr {s s' : Db} (h : Provided s) (husers : s'.users = s.users)
    (haccounts : s'.directory.accounts = s.directory.accounts) : Provided s' := by
  have hactive : ∀ id accountType, activeAccounts s'.directory id accountType =
      activeAccounts s.directory id accountType := by
    intro id accountType
    rw [activeAccounts, activeAccounts, haccounts]
  refine ⟨fun a ha => ?_, fun id u hu hrole => ?_, fun id u hu hrole => ?_⟩
  · rw [husers]
    exact h.owned a (haccounts ▸ ha)
  · rw [hactive]
    exact h.client id u (husers ▸ hu) hrole
  · rw [hactive]
    exact h.courier id u (husers ▸ hu) hrole

/-- Parties stay provided, and orders and accounts stay. -/
structure KeepsParties (s s' : Db) : Prop where
  /-- Parties are provided. -/
  provided : Provided s'
  /-- Orders stay. -/
  orders_eq : s'.orders = s.orders
  /-- Accounts stay. -/
  accounts : ∀ a ∈ s.directory.accounts, a ∈ s'.directory.accounts

theorem Provided.keeps {s s' : Db} {id : Uuid} {u : User} {opened : List Account} (h : Provided s)
    (he : Enters s s' id u opened)
    (hclient : isClientRole u.role = true →
      (activeAccounts s.directory id .client).length + (ofType opened .client).length = 1)
    (hcourier : u.role = .courier →
      (activeAccounts s.directory id .courier).length + (ofType opened .courier).length = 1) :
    KeepsParties s s' where
  provided := h.enter he hclient hcourier
  orders_eq := he.orders_eq
  accounts a ha := by
    rw [he.accounts_eq]
    exact List.mem_append_left _ ha

section Commands

variable {env : Env} {r r' : UserRegistry}

theorem registerLocalUser_keeps {schema : UserAdminCreate} (h : Provided r.db)
    (hrole : isClientRole schema.role = false)
    (hrun : registerLocalUser env schema r = .ok r') : KeepsParties r.db r'.db := by
  obtain ⟨-, opened, hopens, -, hcourier⟩ := registerLocalUser_enters hrun
  refine h.keeps hopens (fun hisClient => ?_) hcourier
  rw [hrole] at hisClient
  cases hisClient

theorem createCourier_keeps {data : CourierCreate} (h : Provided r.db)
    (hrun : createCourier env data r = .ok r') : KeepsParties r.db r'.db := by
  obtain ⟨hfresh, a, hopens, htype⟩ := createCourier_enters hrun
  refine h.keeps hopens (fun hclient => ?_) fun _ => ?_
  · cases hclient
  · rw [h.activeAccounts_new hfresh, ofType, List.filter_cons_of_pos (by simp [htype])]
    rfl

/-- A new client has one account. -/
theorem Provided.keeps_client {s s' : Db} {id : Uuid} {u : User} {a : Account} (h : Provided s)
    (hfresh : s.users.find? id = none) (hrole : u.role = .clientB2C ∨ u.role = .clientB2B)
    (hopens : Enters s s' id u [a]) (htype : a.type = .client) : KeepsParties s s' := by
  refine h.keeps hopens (fun _ => ?_) fun hcourier => ?_
  · rw [h.activeAccounts_new hfresh, ofType, List.filter_cons_of_pos (by simp [htype])]
    rfl
  · rcases hrole with hrole | hrole
    · cases hrole.symm.trans hcourier
    · cases hrole.symm.trans hcourier

theorem createClient_keeps {data : ClientCreate} {r r' : Registry} (h : Provided r.db)
    (hrun : ClientService.createClient env data r = .ok r') : KeepsParties r.db r'.db := by
  obtain ⟨hfresh, a, hopens, htype⟩ := createClient_enters hrun
  exact h.keeps_client hfresh data.role_client hopens htype

/-- An address changes neither parties nor accounts. -/
theorem createClientInventory_keeps {clientId : Uuid} {name : String} {r r' : Registry}
    (h : Provided r.db) (hrun : createClientInventory env clientId name r = .ok r') :
    KeepsParties r.db r'.db := by
  obtain ⟨-, -, hrun⟩ := bind_eq_ok.mp hrun
  have hopens := addInventory_opens hrun
  have haccounts : r'.db.directory.accounts = r.db.directory.accounts := by
    rw [hopens.accounts_eq, List.append_nil]
  exact ⟨h.congr hopens.users_eq haccounts, hopens.orders_eq, fun a ha => haccounts ▸ ha⟩

/-- An update makes a courier with an account and a client only of a user who has one. -/
theorem update_keeps {id : Uuid} {schema : UserAdminUpdate} (h : Provided r.db)
    (hrole : ∀ role, schema.role = some (some role) → isClientRole role = true →
      (activeAccounts r.db.directory id .client).length = 1)
    (hrun : UserService.update env id schema r = .ok r') : KeepsParties r.db r'.db := by
  obtain ⟨user, u, opened, hfind, hopens, hset, hnone, hcourier⟩ := update_enters hrun
  refine h.keeps hopens (fun hclient => ?_) hcourier
  have hone : (activeAccounts r.db.directory id .client).length = 1 := by
    rcases hset with hsame | ⟨-, hsame | hset⟩
    · exact h.client id user hfind (hsame ▸ hclient)
    · exact h.client id user hfind (hsame ▸ hclient)
    · exact hrole u.role hset hclient
  rw [hnone]
  exact hone

end Commands

/-! ## Orders -/

/-- The parties of a delivery have accounts. -/
def Backed (d : Directory) (o : Order) : Prop :=
  o.saleType = .delivery → activeAccounts d o.clientId .client ≠ [] ∧
    ∀ c, o.courierId = some c → activeAccounts d c .courier ≠ []

/-- All orders are in order and have parties with accounts. -/
def OrdersBacked (s : Db) : Prop :=
  ∀ id o, s.orders.find? id = some o → OrderOk o ∧ Backed s.directory o

/-- Parties are provided, and so are those of the orders. -/
structure Sound (s : Db) : Prop where
  /-- Clients and couriers have accounts. -/
  provided : Provided s
  /-- Deliveries can be settled. -/
  orders : OrdersBacked s

/-- Accounts that stay back the orders that they backed. -/
theorem Backed.mono {d d' : Directory} {o : Order} (h : Backed d o)
    (haccounts : ∀ a ∈ d.accounts, a ∈ d'.accounts) : Backed d' o := by
  have hkeep : ∀ id accountType, activeAccounts d id accountType ≠ [] →
      activeAccounts d' id accountType ≠ [] := by
    intro id accountType hne
    obtain ⟨a, ha⟩ := List.exists_mem_of_ne_nil _ hne
    obtain ⟨hmem, hmatch⟩ := List.mem_filter.mp ha
    exact List.ne_nil_of_mem (List.mem_filter.mpr ⟨haccounts a hmem, hmatch⟩)
  intro hsale
  obtain ⟨hclient, hcourier⟩ := h hsale
  exact ⟨hkeep _ _ hclient, fun c hc => hkeep _ _ (hcourier c hc)⟩

/-- The operations that look a party up. -/
def looksUp : Operations.Operation → Bool
  | .createOrder _ _ | .assignCourier _ _ => true
  | _ => false

theorem ne_nil_of_length {α : Type} {l : List α} (h : l.length = 1) : l ≠ [] := by
  intro hnil
  rw [hnil] at h
  cases h

/-- Whether an order is backed depends on its parties only. -/
theorem Backed.congr {d : Directory} {o o' : Order} (h : Backed d o)
    (hsale : o'.saleType = o.saleType) (hclient : o'.clientId = o.clientId)
    (hcourier : o'.courierId = o.courierId) : Backed d o' := by
  rw [Backed, hsale, hclient, hcourier]
  exact h

/-- A step keeps the parties of an order backed: who is looked up has an account. -/
theorem step_backed {r : Request} {s : Db} {id : Uuid} {old : Option Order} {new : Order}
    (hprovided : looksUp r.op = true → Provided s)
    (h : OrderStep Regime.serial r s id old new)
    (hold : ∀ o, old = some o → Backed s.directory o) : Backed s.directory new := by
  have hexact : Regime.Exact (S := schema) Regime.serial := Regime.serialAsserting_exact _
  cases h with
  | placed _ _ _ _ _ _ _ _ hop _ _ _ hcourier hclient =>
    obtain ⟨dto, hop, -⟩ := hop
    have hprovided := hprovided (by rw [hop]; rfl)
    obtain ⟨u, hu, hrole⟩ := (Option.any_eq_true _ _).mp (hclient hexact)
    rw [Bool.and_eq_true] at hrole
    refine fun _ => ⟨ne_nil_of_length (hprovided.client _ u hu hrole.1), fun c hc => ?_⟩
    cases hcourier.symm.trans hc
  | sold _ hsale => exact fun hdelivery => absurd (hsale.symm.trans hdelivery) (by decide)
  | @assigned o courierId _ hsale hop hcourier =>
    have hprovided := hprovided (by rw [hop]; rfl)
    obtain ⟨u, hu, hrole⟩ := (Option.any_eq_true _ _).mp (hcourier hexact)
    rw [Bool.and_eq_true, decide_eq_true_eq] at hrole
    refine fun _ => ⟨(hold o rfl hsale).1, fun c hc => ?_⟩
    cases hc
    exact ne_nil_of_length (hprovided.courier _ u hu hrole.1)
  | lineAdded | lineRemoved | moved | cancelled | delivered | pickedUp =>
    exact (hold _ rfl).congr rfl rfl rfl

/-- One change keeps all orders in order and backed. -/
theorem change_backed {r : Request} {s s' : Db} (hprovided : looksUp r.op = true → Provided s)
    (hs : OrdersBacked s) (h : Change Regime.serial r s s') : OrdersBacked s' := by
  intro id o ho
  rw [h.directory_eq]
  rcases h.order_cases id with hsame | ⟨new, hnew, hstep⟩
  · exact hs id o (hsame ▸ ho)
  · cases hnew.symm.trans ho
    exact ⟨hstep.orderOk fun x hx => (hs id x hx).1,
      step_backed hprovided hstep fun x hx => (hs id x hx).2⟩

/-- An operation that looks a party up changes one order. -/
theorem looksUp_change {r : Request} (hlooks : looksUp r.op = true) (s : Db) :
    wp Regime.serial (Operations.program r) (fun _ s' => Change Regime.serial r s s')
      (fun _ => True) s := by
  cases hop : r.op with
  | createOrder clientId dto =>
    have hprogram : Operations.program r = createOrder r.env clientId dto := by
      rw [Operations.program, hop]
    rw [hprogram]
    exact createOrder_change Tame.serial hop
  | assignCourier orderId courierId =>
    have hprogram : Operations.program r = assignCourier r.env orderId courierId := by
      rw [Operations.program, hop]
    rw [hprogram]
    exact assignCourier_change Tame.serial hop
  | _ =>
    rw [hop] at hlooks
    cases hlooks

/-- A request that is served keeps the parties and the orders. -/
theorem service_sound {s : Db} (hs : Sound s) (q : ServiceRequest) :
    wp Regime.serial (program q) (fun _ s' => Sound s') (fun _ => True) s := by
  have hok : OrdersOk s := fun id o ho => (hs.orders id o ho).1
  have horders : wp Regime.serial (program q) (fun _ s' => OrdersBacked s') (fun _ => True) s := by
    cases q with
    | stock env op =>
      exact wp_stock Tame.serial (stockProgram_quiet env op) fun _ b st sx => hs.orders
    | operation r =>
      by_cases hlooks : looksUp r.op = true
      · refine wp_mono _ (looksUp_change hlooks s) (fun _ _ h => ?_) fun _ he => he
        exact change_backed (fun _ => hs.provided) hs.orders h
      · have hchanges := program_changes (r := r) Tame.serial hok fun s₁ _ =>
          releasable_of_lax Regime.serial_lax s₁
        refine wp_mono _ hchanges (fun _ _ h => ?_) fun _ he => he
        refine h.induction (I := OrdersBacked) hs.orders fun _ _ h₁ hchange => ?_
        exact change_backed (fun h => absurd h hlooks) h₁ hchange
  refine wp_mono _ (wp_and _ (wp_parties _ s) horders) (fun _ s' h => ?_) fun _ _ => trivial
  obtain ⟨⟨husers, hdirectory⟩, horders⟩ := h
  exact ⟨hs.provided.congr husers (congrArg _ hdirectory), horders⟩

/-! ## Commands and orders -/

/-- A command that leaves the orders alone keeps them backed. -/
theorem KeepsParties.sound {s s' : Db} (h : KeepsParties s s') (hs : Sound s) : Sound s' := by
  refine ⟨h.provided, fun id o ho => ?_⟩
  rw [h.orders_eq] at ho
  obtain ⟨hok, hbacked⟩ := hs.orders id o ho
  exact ⟨hok, hbacked.mono h.accounts⟩

/-- An onboarding provides the client and then stores the first order. -/
theorem onboardClientWithBalance_sound {env : Env} {data : ClientOnboardingRequest}
    {creatorId : Uuid} {r r' : Registry} (hs : Sound r.db)
    (hrun : ClientService.onboardClientWithBalance env data creatorId r = .ok r') :
    Sound r'.db := by
  obtain ⟨hfresh, r₃, a, u, hopens, htype, hrun⟩ := onboardClientWithBalance_enters hrun
  have hkeeps := hs.provided.keeps_client hfresh data.role_client hopens htype
  have hsound := hkeeps.sound hs
  have huser : r₃.db.users.find? (env.uuid 0 0) = some ⟨data.role, true, data.username⟩ := by
    rw [hopens.users_eq, Table.find?_put_self]
  have hrole : isClientRole data.role = true := by
    rcases data.role_client with hrole | hrole <;> simp [isClientRole, hrole]
  have haccounts := hsound.provided.client _ _ huser hrole
  have horders : wp Regime.serial (firstMovements env data creatorId)
      (fun _ s' => FirstOrdered env data r₃.db.orders s'.orders) (fun _ => True) r₃.db :=
    wp_firstMovements Tame.serial env data creatorId fun _ _ _ _ h => h
  obtain ⟨⟨husers, hdirectory⟩, horders⟩ :=
    wp_serial_run (wp_and _ (wp_parties _ r₃.db) horders) hrun
  refine ⟨hsound.provided.congr husers (congrArg _ hdirectory), fun id o ho => ?_⟩
  rw [hdirectory]
  cases horders with
  | none _ hsame => exact hsound.orders id o (hsame ▸ ho)
  | some order new _ _ hnew hwritten =>
    by_cases hid : id = env.uuid 2 0
    · rw [hid, hwritten.find?_self] at ho
      cases ho
      refine ⟨hnew.orderOk, fun _ => ⟨?_, fun c hc => ?_⟩⟩
      · rw [hnew.clientId_eq]
        exact ne_nil_of_length haccounts
      · cases hnew.courierId_eq.symm.trans hc
    · rw [hwritten.find?_ne hid] at ho
      exact hsound.orders id o ho

/-! ## Runs -/

/-- What happens next. -/
inductive PartyEvent
  /-- A user is created or changed. -/
  | user (env : Env) (op : UserOperation)
  /-- A client gets an address. -/
  | address (env : Env) (clientId : Uuid) (name : String)
  /-- A request is served. -/
  | service (q : ServiceRequest)

/-- The registry after an event; what fails leaves it as it was. -/
def PartyEvent.serve : PartyEvent → UserRegistry → UserRegistry
  | .user env op, r =>
    match op.run env r with
    | .ok r' => r'
    | .error _ => r
  | .address env clientId name, r =>
    match beside r (createClientInventory env clientId name r.toRegistry) with
    | .ok r' => r'
    | .error _ => r
  | .service q, r => { r with db := Transaction.serve (S := schema) (program q) r.db }

/-- No client is registered without an account, and nobody without a client's
account is made one. -/
def PartyEvent.meets : PartyEvent → UserRegistry → Bool
  | .user _ (.registerLocalUser schema), _ => !isClientRole schema.role
  | .user _ (.update id schema), r =>
    schema.role.all fun role => role.all fun role =>
      !isClientRole role || (activeAccounts r.db.directory id .client).length = 1
  | _, _ => true

/-- The registry after several events. -/
def serveEvents (events : List PartyEvent) (r : UserRegistry) : UserRegistry :=
  events.foldl (fun r e => e.serve r) r

/-- All events meet the condition when it is their turn. -/
def allMeet : List PartyEvent → UserRegistry → Bool
  | [], _ => true
  | e :: events, r => e.meets r && allMeet events (e.serve r)

/-- An event that meets the condition keeps parties and orders. -/
theorem serve_sound {e : PartyEvent} {r : UserRegistry} (hs : Sound r.db)
    (hmeets : e.meets r = true) : Sound (e.serve r).db := by
  cases e with
  | service q => exact serve_of_wp (S := schema) (service_sound hs q) hs
  | user env op =>
    unfold PartyEvent.serve
    dsimp only
    split
    · next r' hrun =>
      cases op with
      | registerLocalUser schema =>
        have hrole : isClientRole schema.role = false := by simpa [PartyEvent.meets] using hmeets
        exact (registerLocalUser_keeps hs.provided hrole hrun).sound hs
      | update id schema =>
        refine (update_keeps hs.provided (fun role hrole hclient => ?_) hrun).sound hs
        simpa [PartyEvent.meets, hrole, hclient] using hmeets
      | createClient data =>
        obtain ⟨registry, hcreate, rfl⟩ := beside_eq_ok hrun
        exact (createClient_keeps hs.provided hcreate).sound hs
      | onboardClientWithBalance data creatorId =>
        obtain ⟨registry, honboard, rfl⟩ := beside_eq_ok hrun
        exact onboardClientWithBalance_sound hs honboard
      | createCourier data => exact (createCourier_keeps hs.provided hrun).sound hs
    · exact hs
  | address env clientId name =>
    unfold PartyEvent.serve
    dsimp only
    split
    · next r' hrun =>
      obtain ⟨registry, haddress, rfl⟩ := beside_eq_ok hrun
      exact (createClientInventory_keeps hs.provided haddress).sound hs
    · exact hs

theorem serveEvents_sound {events : List PartyEvent} {r : UserRegistry} (hs : Sound r.db)
    (hmeets : allMeet events r = true) : Sound (serveEvents events r).db := by
  induction events generalizing r with
  | nil => exact hs
  | cons e events ih =>
    rw [allMeet, Bool.and_eq_true] at hmeets
    exact ih (serve_sound hs hmeets.1) hmeets.2

/-! ## Settlement -/

/-- The exceptions of a settlement that does not find the account of a party. -/
def accountMissing : Err → Bool
  | .notFound _ errorCode _ =>
    errorCode = "CLIENT_ACCOUNT_NOT_FOUND" || errorCode = "COURIER_ACCOUNT_NOT_FOUND"
  | _ => false

/-- An active account is found. -/
theorem userAccountByType_isSome {d : Directory} {id : Uuid} {accountType : AccountType}
    (h : activeAccounts d id accountType ≠ []) :
    (d.userAccountByType id accountType).isSome = true := by
  have hperm := List.perm_insertionSort
    (fun a b : Account => a.createdAt < b.createdAt ∨ a.createdAt = b.createdAt ∧ a.id ≤ b.id)
    (activeAccounts d id accountType)
  rw [Directory.userAccountByType, List.isSome_head?]
  intro hnil
  rw [activeAccounts, hnil] at hperm
  exact h hperm.nil_eq.symm

/-- The payment of a delivery finds the courier. -/
theorem deliveryPayment_finds {env : Env} {id : Uuid} {o : Order} {d : Directory} {client : Account}
    (hcourier : ∀ c, o.courierId = some c → activeAccounts d c .courier ≠ []) {e : Err}
    (h : deliveryPayment env id o d client = .error e) : accountMissing e = false := by
  unfold deliveryPayment cardPayment at h
  split at h
  · next courierId _ hc =>
    obtain ⟨account, haccount⟩ :=
      Option.isSome_iff_exists.mp (userAccountByType_isSome (hcourier courierId hc))
    rw [Directory.courierAccount, haccount] at h
    cases h
  · cases h
  · split at h
    · cases h
      rfl
    · cases h
  · cases h

theorem accountMissing_of_isConstraint {e : Err} (h : isConstraint e = true) :
    accountMissing e = false := by
  cases e <;> first | rfl | cases h

/-- A part that does not look for the accounts of parties. -/
abbrev Finds {α : Type} (p : Uow α) : Prop :=
  Within (S := schema) (fun _ _ => True) (fun e => accountMissing e = false) p

/-- Such a part fails for other reasons and leaves the accounts as they are. -/
theorem wp_finds {α : Type} {p : Uow α} (hp : Finds p) {s : Db} {Q : α → Db → Prop}
    (hQ : ∀ a s', s'.directory = s.directory → Q a s') :
    wp Regime.serial p Q (fun e => accountMissing e = false) s := by
  refine wp_frame hp (fun _ _ _ _ => trivial) (fun _ he => he) ?_ fun a s' hframe => ?_
  · intro k st old e _ he
    exact accountMissing_of_isConstraint (exec_isConstraint k st old he)
  · refine hQ a s' (hframe.induction (I := fun s' : Db => s'.directory = s.directory) rfl ?_)
    intro s₁ k st row _ hs
    exact (Db.directory_put s₁ k row).trans hs

/-- The rows of a settlement are refused for other reasons. -/
theorem insertTransactions_finds (rows : List (Uuid × FinancialTransaction)) :
    Finds (FinancialLedger.insertTransactions rows) :=
  insertTransactions_within (fun _ _ => trivial) (fun _ _ => trivial) (fun _ => rfl)
    (fun _ => rfl) rows

/-- The settlement of a delivery finds the accounts of its parties. -/
theorem settlement_finds {s : Db} {o : Order} (hbacked : Backed s.directory o)
    (hsale : o.saleType = .delivery) (env : Env) (id : Uuid) {Q : Unit → Db → Prop}
    (hQ : ∀ s', Q () s') :
    wp Regime.serial (processFinancialSettlement env id o) Q
      (fun e => accountMissing e = false) s := by
  obtain ⟨hclient, hcourier⟩ := hbacked hsale
  rw [processFinancialSettlement, settle, wp_bind, wp_ask]
  rintro v rfl
  rw [wp_bind, wp_orRaise]
  refine ⟨fun hnone => ?_, fun client _ => ?_⟩
  · have hsome := userAccountByType_isSome hclient
    rw [Directory.clientAccount] at hnone
    rw [hnone] at hsome
    cases hsome
  rw [wp_bind, wp_orRaise]
  refine ⟨fun _ => rfl, fun revenue _ => ?_⟩
  rw [wp_bind, wp_fromExcept]
  refine ⟨fun e he => ?_, fun payments _ => ?_⟩
  · exact deliveryPayment_finds hcourier he
  · exact wp_finds (insertTransactions_finds _) fun _ s' _ => hQ s'

/-- The goods of a delivery are moved without the accounts. -/
theorem deliverStock_finds (env : Env) (orderId : Uuid) (o : Order) (courierId : Uuid) :
    Finds (deliverStock env orderId o courierId) := by
  have hdeliver : Within (S := schema) StockLedger.StockStmt (fun e => accountMissing e = false)
      (deliverStock env orderId o courierId) :=
    deliverStock_within (by rfl) (fun _ => rfl) (fun _ => rfl) (fun _ => rfl) (fun _ => rfl) _ _ _ _
  exact hdeliver.mono (fun _ _ _ => trivial) fun _ he => he

theorem decrementQuantitiesUsed_finds (c : Uuid) (qs : List (Uuid × ℤ)) :
    Finds (Quota.decrementQuantitiesUsed c qs) :=
  decrementQuantitiesUsed_within (fun _ _ => trivial) (fun _ _ => rfl) (fun _ => rfl) qs

/-- What was handed over is entered; the parties of the order stay. -/
theorem wp_adjustOrder_finds {s : Db} {o : Order} (env : Env) (id : Uuid)
    (actual : List OrderItemActual) {Q : Order → Db → Prop}
    (hQ : ∀ items total s', s'.directory = s.directory →
      Q { o with items := items, totalAmount := total } s') :
    wp Regime.serial (adjustOrder env id o actual) Q (fun e => accountMissing e = false) s := by
  rw [adjustOrder, wp_bind]
  refine wp_finds (adjustLines_within (fun _ _ => trivial) (fun _ _ _ => rfl) _ _) fun _ s₁ h₁ => ?_
  have hquota : Finds (whenSome o.contract? fun c =>
      Quota.decrementQuantitiesUsed c (quotaDeltas actual o.items)) :=
    (within_whenSome _ _).mpr fun c _ => decrementQuantitiesUsed_finds c _
  rw [wp_bind]
  refine wp_finds hquota fun _ s₂ h₂ => ?_
  have htotal : Finds (issue (.order id)
      (.update { totalAmount := some (lineTotal (o.items.map (adjustItem actual))) } env.now)) :=
    (within_execute _ _).mpr trivial
  rw [wp_bind]
  refine wp_finds htotal fun _ s₃ h₃ => ?_
  exact hQ _ _ s₃ (h₃.trans (h₂.trans h₁))

/-- A delivery is closed without asking for an account that is not there. -/
theorem wp_handleOrderFulfillment_finds {s : Db} {o : Order} (hbacked : Backed s.directory o)
    (hsale : o.saleType = .delivery) (env : Env) (id : Uuid) (actual : List OrderItemActual)
    {Q : Unit → Db → Prop} (hQ : ∀ s', Q () s') :
    wp Regime.serial (handleOrderFulfillment env id o actual) Q
      (fun e => accountMissing e = false) s := by
  rw [handleOrderFulfillment, wp_bind, wp_orRaise]
  refine ⟨fun _ => rfl, fun courierId _ => ?_⟩
  have hrest : ∀ items total s', s'.directory = s.directory →
      wp Regime.serial (do
        deliverStock env id { o with items := items, totalAmount := total } courierId
        processFinancialSettlement env id { o with items := items, totalAmount := total }) Q
        (fun e => accountMissing e = false) s' := by
    intro items total s' hdirectory
    rw [wp_bind]
    refine wp_finds (deliverStock_finds _ _ _ _) fun _ s'' hsame => ?_
    have hsame := hsame.trans hdirectory
    refine settlement_finds (o := { o with items := items, totalAmount := total }) ?_ hsale env id hQ
    rw [hsame]
    exact hbacked.congr rfl rfl rfl
  rw [wp_bind]
  split
  · exact hrest o.items o.totalAmount s rfl
  · exact wp_adjustOrder_finds env id actual hrest

/-- Every status update of a delivery finds the accounts that it asks for. -/
theorem updateStatus_finds {s : Db} {id : Uuid} {o : Order} (ho : s.orders.find? id = some o)
    (hbacked : Backed s.directory o) (hsale : o.saleType = .delivery) (env : Env)
    (newStatus : OrderStatus) (actual : List OrderItemActual) (u : Option Uuid)
    (reason : Option String) :
    wp Regime.serial (updateStatus env id newStatus actual u reason) (fun _ _ => True)
      (fun e => accountMissing e = false) s := by
  have hlog : ∀ entry : OrderStatusLog, Finds (issue (.order id) (.logTransition entry)) :=
    fun entry => (within_execute _ _).mpr trivial
  have hwrite : ∀ data : OrderUpdate, Finds (issue (.order id) (.update data env.now)) :=
    fun data => (within_execute _ _).mpr trivial
  have hget : s.get (.order id) = some o := ho
  rw [updateStatus, wp_bind, getOrderLocked, wp_bind, wp_locked, wp_orRaise]
  refine ⟨fun _ => rfl, fun x hx => ?_⟩
  cases hget.symm.trans hx
  rw [wp_bind, wp_raiseIf]
  refine ⟨fun _ => rfl, fun _ => ?_⟩
  have hallowed : Finds (ensureStatusTransitionAllowed id o newStatus) := by
    refine (within_whenever _ _).mpr fun _ => ?_
    refine within_bind ((within_raiseIf _ _).mpr fun _ => rfl) fun _ => ?_
    refine within_bind ((within_raiseIf _ _).mpr fun _ => rfl) fun _ => ?_
    exact (within_raiseIf _ _).mpr fun _ => rfl
  rw [wp_bind]
  refine wp_finds hallowed fun _ s₁ h₁ => ?_
  rw [wp_bind]
  refine wp_finds (hwrite _) fun _ s₂ h₂ => ?_
  have hdirectory := h₂.trans h₁
  have hrest : Finds (do
      whenever (newStatus = .cancelled ∧ o.status ≠ .cancelled ∧ o.contract?.isSome ∧
          o.quantitiesReserved = true ∧
          o.status ∉ [OrderStatus.delivered, .pickupCompleted]) <|
        releaseOrderQuantities env id o
      whenever (newStatus = .cancelled ∧ reason.any fun r => r ≠ "") <|
        issue (.order id) (.update { cancellationReason := reason } env.now)
      issue (.order id) (.logTransition ⟨some o.status, newStatus, u, reason⟩)) := by
    refine within_bind ((within_whenever _ _).mpr fun _ => ?_) fun _ => ?_
    · refine within_bind ((within_whenSome _ _).mpr fun c _ => ?_) fun _ => hwrite _
      exact decrementQuantitiesUsed_finds c _
    · exact within_bind ((within_whenever _ _).mpr fun _ => hwrite _) fun _ => hlog _
  rw [wp_bind, wp_whenever]
  refine ⟨fun _ => ?_, fun _ => wp_finds hrest fun _ _ _ => trivial⟩
  refine wp_handleOrderFulfillment_finds (o := { o with status := newStatus }) ?_ hsale env id
    actual fun s' => wp_finds hrest fun _ _ _ => trivial
  rw [hdirectory]
  exact hbacked.congr rfl rfl rfl

/-! ## The parties of all orders -/

/-- In every run from a company without orders whose clients and couriers have
their accounts, in which nobody becomes a client without an account, they all
have one account each, and no delivery fails because one is missing. -/
theorem parties_have_accounts {r : UserRegistry} (hprovided : Provided r.db)
    (hnone : ∀ id, r.db.orders.find? id = none) (events : List PartyEvent)
    (hmeets : allMeet events r = true) :
    (∀ id u, (serveEvents events r).db.users.find? id = some u → isClientRole u.role = true →
      (activeAccounts (serveEvents events r).db.directory id .client).length = 1) ∧
    (∀ id u, (serveEvents events r).db.users.find? id = some u → u.role = .courier →
      (activeAccounts (serveEvents events r).db.directory id .courier).length = 1) ∧
    ∀ id o, (serveEvents events r).db.orders.find? id = some o → o.saleType = .delivery →
      ∀ env newStatus actual u reason e,
        (updateStatus env id newStatus actual u reason).run (serveEvents events r).db = .error e →
          accountMissing e = false := by
  have hstart : Sound r.db := by
    refine ⟨hprovided, fun id o ho => ?_⟩
    rw [hnone id] at ho
    cases ho
  have hsound := serveEvents_sound hstart hmeets
  refine ⟨hsound.provided.client, hsound.provided.courier, ?_⟩
  intro id o ho hsale env newStatus actual u reason e hrun
  have hbacked := (hsound.orders id o ho).2
  have hfinds := updateStatus_finds ho hbacked hsale env newStatus actual u reason
  rw [wp_serial_iff, hrun] at hfinds
  exact hfinds

/-- A company with a courier and a client, who have their accounts. -/
def staffed : UserRegistry where
  db := { Operations.sampleDb with
    users := Operations.sampleDb.users.put systemUserId (some ⟨.admin, true, "system"⟩) }
  identities := [("111", 0), ("666", 6)]
  passwords := ["111", "666"]

theorem staffed_provided : Provided staffed.db where
  owned := by decide
  client id u hu hrole := by
    have hall : ∀ x ∈ staffed.db.users.rows, isClientRole x.2.role = true →
        (activeAccounts staffed.db.directory x.1 .client).length = 1 := by decide
    exact hall (id, u) ((Table.mem_rows_iff _ id u).mpr hu) hrole
  courier id u hu hrole := by
    have hall : ∀ x ∈ staffed.db.users.rows, x.2.role = .courier →
        (activeAccounts staffed.db.directory x.1 .courier).length = 1 := by decide
    exact hall (id, u) ((Table.mem_rows_iff _ id u).mpr hu) hrole

theorem staffed_orders (id : Uuid) : staffed.db.orders.find? id = none := rfl

/-- Identifiers of the rows of a user. -/
def userEnv : Env := ⟨0, fun i j => 500 + 10 * i + j⟩

/-- A client orders coffee, which a courier brings to the door. -/
def brought (clientId inventoryId : Uuid) : List PartyEvent :=
  [.service (.operation (Operations.sampleRequest 0 0
      (.createOrder clientId ⟨[⟨23, 2, Operations.two_pieces⟩], .cash, inventoryId, false, none⟩))),
    .service (.operation (Operations.sampleRequest 1 1 (.assignCourier 10000 6))),
    .service (.operation (Operations.sampleRequest 2 2
      (.updateStatus 10000 .inTransit [] none none))),
    .service (.operation (Operations.sampleRequest 3 3
      (.updateStatus 10000 .arrived [] none none)))]

/-- A client is created with an address, a storekeeper becomes a courier, and
the client's order is brought. -/
def providedEvents : List PartyEvent :=
  .user userEnv (.createClient ⟨"newcomer", some "998", .clientB2C, some "home",
      (StatusLog.newcomer none).role_client, (StatusLog.newcomer none).phone_length,
      (StatusLog.newcomer none).phone_isSome⟩) ::
    .user ⟨0, fun i j => 600 + 10 * i + j⟩
      (.registerLocalUser (keeper "777")) ::
    .user ⟨0, fun i j => 700 + 10 * i + j⟩
      (.update 600 ⟨none, none, false, some (some .courier), none, no_username⟩) ::
    brought 500 502

/-- The status of an order. -/
def orderStatus (id : Uuid) (r : UserRegistry) : Option OrderStatus :=
  (r.db.orders.find? id).map Order.status

theorem parties_have_accounts_sample :
    (orderStatus 10000 (serveEvents providedEvents staffed) = some .arrived ∧
      ((serveEvents providedEvents staffed).db.users.find? 600).map User.role = some .courier) ∧
    (∀ id u, (serveEvents providedEvents staffed).db.users.find? id = some u →
      isClientRole u.role = true →
        (activeAccounts (serveEvents providedEvents staffed).db.directory id .client).length = 1) ∧
    (∀ id u, (serveEvents providedEvents staffed).db.users.find? id = some u →
      u.role = .courier →
        (activeAccounts (serveEvents providedEvents staffed).db.directory id .courier).length = 1) ∧
    ∀ id o, (serveEvents providedEvents staffed).db.orders.find? id = some o →
      o.saleType = .delivery → ∀ env newStatus actual u reason e,
        (updateStatus env id newStatus actual u reason).run
          (serveEvents providedEvents staffed).db = .error e → accountMissing e = false :=
  ⟨by decide +kernel,
    parties_have_accounts staffed_provided staffed_orders providedEvents (by decide +kernel)⟩

/-- A client is registered with a password, gets an address, and the order is brought. -/
def registeredEvents : List PartyEvent :=
  .user userEnv (.registerLocalUser ⟨.clientB2C, "newcomer", "998", by decide⟩) ::
    .address userEnv 500 "home" :: brought 500 502

/-- Whether an order cannot be delivered because an account is missing. -/
def failsForAccount (r : UserRegistry) : Bool :=
  match (updateStatus ⟨4, fun i j => 50000 + 100 * i + j⟩ 10000 .delivered [] none none).run r.db with
  | .ok _ => false
  | .error e => accountMissing e

/-- The order of a client who was registered with a password is accepted and
brought and then cannot be delivered. -/
theorem registered_client_without_account :
    ¬ ∀ (r : UserRegistry) (events : List PartyEvent), Provided r.db →
      (∀ id, r.db.orders.find? id = none) →
      (∀ id u, (serveEvents events r).db.users.find? id = some u → isClientRole u.role = true →
        (activeAccounts (serveEvents events r).db.directory id .client).length = 1) ∧
      (∀ id u, (serveEvents events r).db.users.find? id = some u → u.role = .courier →
        (activeAccounts (serveEvents events r).db.directory id .courier).length = 1) ∧
      ∀ id o, (serveEvents events r).db.orders.find? id = some o → o.saleType = .delivery →
        ∀ env newStatus actual u reason e,
          (updateStatus env id newStatus actual u reason).run (serveEvents events r).db =
            .error e → accountMissing e = false := by
  intro hclaim
  obtain ⟨-, -, hsettled⟩ := hclaim staffed registeredEvents staffed_provided staffed_orders
  have hstored : ((serveEvents registeredEvents staffed).db.orders.find? 10000).map
      Order.saleType = some .delivery := by decide +kernel
  obtain ⟨o, ho, hsale⟩ := Option.map_eq_some_iff.mp hstored
  have hfails : failsForAccount (serveEvents registeredEvents staffed) = true := by
    decide +kernel
  unfold failsForAccount at hfails
  split at hfails
  · cases hfails
  · next e hrun =>
    have hfound := hsettled 10000 o ho hsale _ _ _ _ _ e hrun
    rw [hfails] at hfound
    cases hfound

end Munavvar.PartyAccounts
