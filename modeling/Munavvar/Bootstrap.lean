import Munavvar.EnsureSteps
import Munavvar.UserEffects

/-!
# The start of the company

At its start the program makes what the services rely on: the system user with
the accounts of the company and the virtual inventories, the buyer that stands
for all who do not give a name, and the first administrator. It looks for each
of them first, so a start may be repeated.
-/

namespace Munavvar.Bootstrap

open Munavvar.KeyedTable
open Munavvar.EnsureSteps
open Munavvar.Database
open Munavvar.StockLedger
open Munavvar.ClientService
open Munavvar.UserService
open Munavvar.ClientEffects
open Munavvar.UserEffects

/-! ## The steps -/

/-- `ADMIN_PHONE` and `ADMIN_PASSWORD`. -/
structure Settings where
  /-- The phone number of the first administrator. -/
  adminPhone : Option String
  /-- The administrator's password. -/
  adminPassword : Option String

/-- The phone number, if it and the password are set. -/
def Settings.admin (c : Settings) : Option String :=
  if c.adminPassword.any fun password => password ≠ "" then
    c.adminPhone.filter fun phone => phone ≠ ""
  else none

/-- The accounts that a user has under a type and a name, active or not. -/
def accountsNamed (userId : Uuid) (type : AccountType) (name : String) (r : UserRegistry) :
    List Account :=
  r.db.directory.accounts.filter fun a => a.userId = userId && a.type = type && a.name = name

/-- `_ensure_account`. -/
def ensureAccount (id userId : Uuid) (type : AccountType) (name : String) (now : ℤ) :
    UserRegistry → Except Err UserRegistry :=
  findOrMake (accountsNamed userId type name) .multipleResultsFound fun r =>
    beside r (createAccount id userId type name now r.toRegistry)

/-- The users with the system role. -/
def systemUsers (r : UserRegistry) : List (Uuid × User) :=
  r.db.users.rows.filter fun x => x.2.role = .system

/-- The system user. -/
def ensureSystemUser : UserRegistry → Except Err UserRegistry :=
  findOrMake systemUsers .multipleResultsFound fun r =>
    beside r (addUser systemUserId ⟨.system, true, "Система (Служебный аккаунт)"⟩ r.toRegistry)

/-- `required_accounts`. -/
def requiredAccounts : List (AccountType × String) :=
  [(.revenue, "Выручка"),
   (.cash, "Кассовый счёт"),
   (.card, "Карта"),
   (.bank, "Банковский счёт"),
   (.expense, "Расходы (Наличные)"),
   (.expense, "Расходы (Карта)"),
   (.expense, "Расходы (Банк)")]

/-- `required_inventories`. -/
def requiredInventories : List (InventoryType × String) :=
  [(.virtualVendor, "Оприходование"), (.virtualLoss, "Списание (Брак и Потери)")]

/-- The inventories of a user and a type, active or not. -/
def inventoriesOf (userId : Uuid) (type : InventoryType) (r : UserRegistry) : List Inventory :=
  r.db.directory.inventories.filter fun i => i.userId = some userId && i.type = type

/-- A virtual inventory is entered. -/
def addVirtualInventory (id userId : Uuid) (type : InventoryType) (name : String)
    (r : UserRegistry) : Except Err UserRegistry := do
  require (fits 255 (some name)) (.stringTooLong "inventories.name")
  require (r.db.directory.inventory? id).isNone (.uniqueViolation "inventories_pkey")
  .ok { r with db := { r.db with
    directory := { r.db.directory with
      inventories := r.db.directory.inventories ++ [⟨id, some userId, type, true, name⟩] } } }

/-- A virtual inventory. -/
def ensureInventory (id userId : Uuid) (type : InventoryType) (name : String) :
    UserRegistry → Except Err UserRegistry :=
  findOrMake (inventoriesOf userId type) .multipleResultsFound
    (addVirtualInventory id userId type name)

/-- The accounts and the virtual inventories of the system user. -/
def ensureSystemRows (env : Env) (userId : Uuid) : UserRegistry → Except Err UserRegistry :=
  andThen
    (inTurn (fun x => ensureAccount (env.uuid 1 x.2) userId x.1.1 x.1.2 env.now)
      requiredAccounts.zipIdx)
    (inTurn (fun x => ensureInventory (env.uuid 2 x.2) userId x.1.1 x.1.2)
      requiredInventories.zipIdx)

/-- The anonymous buyer with an identity, an inventory and an account. -/
def addWalkin (env : Env) (r : UserRegistry) : Except Err UserRegistry := do
  let registry ← addUser walkinUserId ⟨.clientB2C, true, "Покупатель со склада (Walk-in)"⟩ r.toRegistry
  let registry ← addLocal walkinUserId "00000000002" registry
  let registry ← addInventory (env.uuid 3 0) walkinUserId "Самовывоз" registry
  let registry ← createAccount (env.uuid 3 1) walkinUserId .client "Счёт анонимных покупок" env.now
    registry
  .ok ⟨registry, "00000000002" :: r.passwords⟩

/-- The anonymous buyer. -/
def ensureWalkin (env : Env) : UserRegistry → Except Err UserRegistry :=
  findOrMake (fun r => (r.db.users.find? walkinUserId).toList) .multipleResultsFound (addWalkin env)

/-- The first administrator with an identity. -/
def addAdmin (env : Env) (phone : String) (r : UserRegistry) : Except Err UserRegistry := do
  let registry ← addUser (env.uuid 4 0) ⟨.admin, true, "Главный Администратор"⟩ r.toRegistry
  let registry ← addLocal (env.uuid 4 0) phone registry
  .ok ⟨registry, phone :: r.passwords⟩

/-- The account of the first administrator. -/
def ensureAdminAccount (env : Env) (userId : Uuid) : UserRegistry → Except Err UserRegistry :=
  ensureAccount (env.uuid 4 1) userId .admin "Счёт администратора" env.now

/-- The administrator with a phone number. -/
def ensureAdminWith (env : Env) (phone : String) (r : UserRegistry) : Except Err UserRegistry :=
  match r.identities.lookup phone with
  | none => andThen (addAdmin env phone) (ensureAdminAccount env (env.uuid 4 0)) r
  | some userId => ensureAdminAccount env userId r

/-- The first administrator, if the settings name one. -/
def ensureAdmin (env : Env) (c : Settings) (r : UserRegistry) : Except Err UserRegistry :=
  match c.admin with
  | some phone => ensureAdminWith env phone r
  | none => .ok r

/-- The rows of the system user that was found or made. -/
def ensureSystemRowsOfUser (env : Env) (r : UserRegistry) : Except Err UserRegistry :=
  ensureSystemRows env (((systemUsers r).map Prod.fst).headD systemUserId) r

/-- `init_data`. -/
def initData (env : Env) (c : Settings) : UserRegistry → Except Err UserRegistry :=
  andThen ensureSystemUser
    (andThen (ensureSystemRowsOfUser env) (andThen (ensureWalkin env) (ensureAdmin env c)))

/-! ## What a step adds -/

/-- Elements that meet a condition come after the ones that are there. -/
def Extends {α : Type} (P : α → Prop) (l l' : List α) : Prop :=
  ∃ new, l' = l ++ new ∧ ∀ a ∈ new, P a

section Extends

variable {α : Type} {P Q : α → Prop} {l l' l'' : List α}

theorem Extends.refl (P : α → Prop) (l : List α) : Extends P l l :=
  ⟨[], (List.append_nil l).symm, fun _ h => absurd h List.not_mem_nil⟩

theorem Extends.one {a : α} (ha : P a) : Extends P l (l ++ [a]) := by
  refine ⟨[a], rfl, fun b hb => ?_⟩
  rw [List.mem_singleton.mp hb]
  exact ha

theorem Extends.trans (h : Extends P l l') (h' : Extends P l' l'') : Extends P l l'' := by
  obtain ⟨new, rfl, hnew⟩ := h
  obtain ⟨new', rfl, hnew'⟩ := h'
  refine ⟨new ++ new', List.append_assoc _ _ _, fun a ha => ?_⟩
  rcases List.mem_append.mp ha with ha | ha
  · exact hnew a ha
  · exact hnew' a ha

theorem Extends.mono (hPQ : ∀ a, P a → Q a) (h : Extends P l l') : Extends Q l l' := by
  obtain ⟨new, hl, hnew⟩ := h
  exact ⟨new, hl, fun a ha => hPQ a (hnew a ha)⟩

/-- A selection that leaves the new elements out stays. -/
theorem Extends.filter_eq {p : α → Bool} (hP : ∀ a, P a → p a = false) (h : Extends P l l') :
    l'.filter p = l.filter p := by
  obtain ⟨new, rfl, hnew⟩ := h
  have hnone : new.filter p = [] := by
    rw [List.filter_eq_nil_iff]
    intro a ha
    rw [hP a (hnew a ha)]
    exact Bool.false_ne_true
  rw [List.filter_append, hnone, List.append_nil]

/-- What is found stays found. -/
theorem Extends.lookup {κ β : Type} [BEq κ] {P : κ × β → Prop} {l l' : List (κ × β)}
    (h : Extends P l l') {k : κ} {b : β} (hk : l.lookup k = some b) : l'.lookup k = some b := by
  obtain ⟨new, rfl, -⟩ := h
  rw [List.lookup_append, hk, Option.some_or]

end Extends

/-- A step adds users, accounts and inventories that meet conditions, and changes none. -/
structure Adds (U : Uuid × User → Prop) (A : Account → Prop) (I : Inventory → Prop)
    (r r' : UserRegistry) : Prop where
  /-- Users. -/
  users : Extends U r.db.users.rows r'.db.users.rows
  /-- Accounts. -/
  accounts : Extends A r.db.directory.accounts r'.db.directory.accounts
  /-- Inventories. -/
  inventories : Extends I r.db.directory.inventories r'.db.directory.inventories
  /-- Identities. -/
  identities : Extends (fun _ => True) r.identities r'.identities

section Adds

variable {U : Uuid × User → Prop} {A : Account → Prop} {I : Inventory → Prop}

theorem Adds.refl (r : UserRegistry) : Adds U A I r r :=
  ⟨.refl _ _, .refl _ _, .refl _ _, .refl _ _⟩

theorem Adds.trans {r r₁ r₂ : UserRegistry} (h : Adds U A I r r₁) (h' : Adds U A I r₁ r₂) :
    Adds U A I r r₂ :=
  ⟨h.users.trans h'.users, h.accounts.trans h'.accounts, h.inventories.trans h'.inventories,
    h.identities.trans h'.identities⟩

variable {r r' : Registry} {ps ps' : List String}

theorem addUser_adds {id : Uuid} {u : User} (hU : U (id, u)) (h : addUser id u r = .ok r') :
    Adds U A I ⟨r, ps⟩ ⟨r', ps'⟩ := by
  simp only [addUser, bind_eq_ok, require_eq_ok, Option.isNone_iff_eq_none] at h
  obtain ⟨-, -, -, hfresh, h⟩ := h
  cases h
  have hrows : (r.db.users.put id (some u)).rows = r.db.users.rows ++ [(id, u)] := by
    rw [Table.put, dif_neg ((Table.find?_eq_none_iff _ _).mp hfresh)]
  refine ⟨?_, .refl _ _, .refl _ _, .refl _ _⟩
  rw [hrows]
  exact .one hU

theorem addLocal_adds {id : Uuid} {phone : String} (h : addLocal id phone r = .ok r') :
    Adds U A I ⟨r, ps⟩ ⟨r', ps'⟩ := by
  simp only [addLocal, bind_eq_ok, require_eq_ok] at h
  obtain ⟨-, -, -, -, h⟩ := h
  cases h
  exact ⟨.refl _ _, .refl _ _, .refl _ _, .one trivial⟩

theorem addInventory_adds {id userId : Uuid} {name : String}
    (hI : I ⟨id, some userId, .client, true, name⟩) (h : addInventory id userId name r = .ok r') :
    Adds U A I ⟨r, ps⟩ ⟨r', ps'⟩ := by
  simp only [addInventory, bind_eq_ok, require_eq_ok] at h
  obtain ⟨-, -, -, -, h⟩ := h
  cases h
  exact ⟨.refl _ _, .refl _ _, .one hI, .refl _ _⟩

theorem createAccount_adds {id userId : Uuid} {type : AccountType} {name : String} {now : ℤ}
    (hA : A ⟨id, userId, type, true, now, name⟩)
    (h : createAccount id userId type name now r = .ok r') : Adds U A I ⟨r, ps⟩ ⟨r', ps'⟩ := by
  simp only [createAccount, bind_eq_ok, require_eq_ok] at h
  obtain ⟨-, -, -, -, h⟩ := h
  cases h
  exact ⟨.refl _ _, .one hA, .refl _ _, .refl _ _⟩

end Adds

/-! ## The steps ensure what they look for -/

section Steps

variable {U : Uuid × User → Prop} {A : Account → Prop} {I : Inventory → Prop}
  {r r' : UserRegistry} {env : Env}

theorem ensureSystemUser_adds (hU : ∀ u : Uuid × User, u.2.role = .system → U u)
    (h : ensureSystemUser r = .ok r') : Adds U A I r r' := by
  rcases findOrMake_ok h with ⟨-, hmade⟩ | ⟨-, rfl⟩
  · obtain ⟨registry, huser, rfl⟩ := beside_eq_ok hmade
    exact addUser_adds (hU _ rfl) huser
  · exact .refl _

theorem ensureAccount_adds {id userId : Uuid} {type : AccountType} {name : String} {now : ℤ}
    (hA : ∀ a : Account, a.userId = userId → a.type = type → a.name = name → A a)
    (h : ensureAccount id userId type name now r = .ok r') : Adds U A I r r' := by
  rcases findOrMake_ok h with ⟨-, hmade⟩ | ⟨-, rfl⟩
  · obtain ⟨registry, haccount, rfl⟩ := beside_eq_ok hmade
    exact createAccount_adds (hA _ rfl rfl rfl) haccount
  · exact .refl _

theorem ensureInventory_adds {id userId : Uuid} {type : InventoryType} {name : String}
    (hI : ∀ i : Inventory, i.userId = some userId → i.type = type → I i)
    (h : ensureInventory id userId type name r = .ok r') : Adds U A I r r' := by
  rcases findOrMake_ok h with ⟨-, hmade⟩ | ⟨-, rfl⟩
  · simp only [addVirtualInventory, bind_eq_ok, require_eq_ok] at hmade
    obtain ⟨-, -, -, -, hmade⟩ := hmade
    cases hmade
    exact ⟨.refl _ _, .refl _ _, .one (hI _ rfl rfl), .refl _ _⟩
  · exact .refl _

/-- The rows of the system user are an account or an inventory of its kinds each. -/
theorem ensureSystemRows_adds {userId : Uuid} (hA : ∀ a : Account, a.userId = userId → A a)
    (hI : ∀ i : Inventory, i.userId = some userId → I i)
    (h : ensureSystemRows env userId r = .ok r') : Adds U A I r r' := by
  obtain ⟨r₁, haccounts, hinventories⟩ := andThen_ok.mp h
  have haccounts : Adds U A I r r₁ := inTurn_relation Adds.refl (fun _ _ _ h h' => h.trans h')
    (fun x _ _ _ hstep => ensureAccount_adds (fun a ha _ _ => hA a ha) hstep) haccounts
  have hinventories : Adds U A I r₁ r' := inTurn_relation Adds.refl (fun _ _ _ h h' => h.trans h')
    (fun x _ _ _ hstep => ensureInventory_adds (fun i hi _ => hI i hi) hstep) hinventories
  exact haccounts.trans hinventories

theorem ensureWalkin_adds (hU : ∀ u : Uuid × User, u.2.role = .clientB2C → U u)
    (hA : ∀ a : Account, a.type = .client → A a) (hI : ∀ i : Inventory, i.type = .client → I i)
    (h : ensureWalkin env r = .ok r') : Adds U A I r r' := by
  rcases findOrMake_ok h with ⟨-, hmade⟩ | ⟨-, rfl⟩
  · obtain ⟨r₁, huser, hmade⟩ := bind_eq_ok.mp hmade
    obtain ⟨r₂, hlocal, hmade⟩ := bind_eq_ok.mp hmade
    obtain ⟨r₃, hinventory, hmade⟩ := bind_eq_ok.mp hmade
    obtain ⟨r₄, haccount, hmade⟩ := bind_eq_ok.mp hmade
    cases hmade
    have huser : Adds U A I r ⟨r₁, r.passwords⟩ := addUser_adds (hU _ rfl) huser
    have hlocal : Adds U A I ⟨r₁, r.passwords⟩ ⟨r₂, r.passwords⟩ := addLocal_adds hlocal
    have hinventory : Adds U A I ⟨r₂, r.passwords⟩ ⟨r₃, r.passwords⟩ :=
      addInventory_adds (hI _ rfl) hinventory
    exact ((huser.trans hlocal).trans hinventory).trans (createAccount_adds (hA _ rfl) haccount)
  · exact .refl _

theorem addAdmin_adds {phone : String} (hU : ∀ u : Uuid × User, u.2.role = .admin → U u)
    (h : addAdmin env phone r = .ok r') :
    Adds U A I r r' ∧ (r.identities.lookup phone = none →
      r'.identities.lookup phone = some (env.uuid 4 0)) := by
  obtain ⟨r₁, huser, h⟩ := bind_eq_ok.mp h
  obtain ⟨r₂, hlocal, h⟩ := bind_eq_ok.mp h
  cases h
  have hadd : Adds U A I r ⟨r₁, r.passwords⟩ := addUser_adds (hU _ rfl) huser
  refine ⟨hadd.trans (addLocal_adds hlocal), fun hnone => ?_⟩
  simp only [addUser, bind_eq_ok, require_eq_ok] at huser
  obtain ⟨-, -, -, -, huser⟩ := huser
  cases huser
  simp only [addLocal, bind_eq_ok, require_eq_ok] at hlocal
  obtain ⟨-, -, -, -, hlocal⟩ := hlocal
  cases hlocal
  dsimp only
  rw [List.lookup_append, hnone, Option.none_or, List.lookup_cons_self]

theorem ensureAdmin_adds {c : Settings} (hU : ∀ u : Uuid × User, u.2.role = .admin → U u)
    (hA : ∀ a : Account, a.type = .admin → A a) (h : ensureAdmin env c r = .ok r') :
    Adds U A I r r' := by
  unfold ensureAdmin at h
  split at h
  · unfold ensureAdminWith at h
    split at h
    · obtain ⟨r₁, hadmin, haccount⟩ := andThen_ok.mp h
      exact (addAdmin_adds hU hadmin).1.trans (ensureAccount_adds (fun a _ ha _ => hA a ha) haccount)
    · exact ensureAccount_adds (fun a _ ha _ => hA a ha) h
  · cases h
    exact .refl _

end Steps

/-! ## The start ensures what it looks for -/

theorem ensureSystemUser_ensures :
    Ensures ensureSystemUser fun r => (systemUsers r).length = 1 := by
  refine ensures_findOrMake fun r r' hnone hmade => ?_
  obtain ⟨registry, huser, rfl⟩ := beside_eq_ok hmade
  simp only [addUser, bind_eq_ok, require_eq_ok, Option.isNone_iff_eq_none] at huser
  obtain ⟨-, -, -, hfresh, huser⟩ := huser
  cases huser
  have hkey := (Table.find?_eq_none_iff _ _).mp hfresh
  unfold systemUsers at hnone ⊢
  simp only [Table.put, dif_neg hkey, List.filter_append, hnone]
  rfl

theorem ensureAccount_ensures (id userId : Uuid) (type : AccountType) (name : String) (now : ℤ) :
    Ensures (ensureAccount id userId type name now) fun r =>
      (accountsNamed userId type name r).length = 1 := by
  refine ensures_findOrMake fun r r' hnone hmade => ?_
  obtain ⟨registry, haccount, rfl⟩ := beside_eq_ok hmade
  simp only [createAccount, bind_eq_ok, require_eq_ok] at haccount
  obtain ⟨-, -, -, -, haccount⟩ := haccount
  cases haccount
  unfold accountsNamed at hnone ⊢
  simp [hnone]

theorem ensureInventory_ensures (id userId : Uuid) (type : InventoryType) (name : String) :
    Ensures (ensureInventory id userId type name) fun r =>
      (inventoriesOf userId type r).length = 1 := by
  refine ensures_findOrMake fun r r' hnone hmade => ?_
  simp only [addVirtualInventory, bind_eq_ok, require_eq_ok] at hmade
  obtain ⟨-, -, -, -, hmade⟩ := hmade
  cases hmade
  unfold inventoriesOf at hnone ⊢
  simp [hnone]

theorem ensureWalkin_ensures (env : Env) :
    Ensures (ensureWalkin env) fun r => (r.db.users.find? walkinUserId).toList.length = 1 := by
  refine ensures_findOrMake fun r r' hnone hmade => ?_
  obtain ⟨r₁, huser, hmade⟩ := bind_eq_ok.mp hmade
  have hfind : r₁.db.users.find? walkinUserId =
      some ⟨.clientB2C, true, "Покупатель со склада (Walk-in)"⟩ := by
    simp only [addUser, bind_eq_ok, require_eq_ok] at huser
    obtain ⟨-, -, -, -, huser⟩ := huser
    cases huser
    exact Table.find?_put_self _ _ _
  obtain ⟨r₂, hlocal, hmade⟩ := bind_eq_ok.mp hmade
  obtain ⟨r₃, hinventory, hmade⟩ := bind_eq_ok.mp hmade
  obtain ⟨r₄, haccount, hmade⟩ := bind_eq_ok.mp hmade
  cases hmade
  have husers := (createAccount_opens haccount).users_eq.trans
    ((addInventory_opens hinventory).users_eq.trans (addLocal_opens hlocal).users_eq)
  dsimp only
  rw [husers, hfind]
  rfl

/-- The administrator that the settings name has an identity and one account. -/
def AdminThere (c : Settings) (r : UserRegistry) : Prop :=
  ∀ phone, c.admin = some phone → ∃ userId, r.identities.lookup phone = some userId ∧
    (accountsNamed userId .admin "Счёт администратора" r).length = 1

theorem ensureAdmin_ensures (env : Env) (c : Settings) :
    Ensures (ensureAdmin env c) (AdminThere c) := by
  constructor
  · intro r hr
    unfold ensureAdmin
    split
    · next phone hphone =>
      obtain ⟨userId, hlookup, haccount⟩ := hr phone hphone
      unfold ensureAdminWith
      rw [hlookup]
      exact (ensureAccount_ensures _ _ _ _ _).skip r haccount
    · rfl
  · intro r r' h phone hphone
    unfold ensureAdmin at h
    rw [hphone] at h
    have hkept : ∀ {userId} {r₁ : UserRegistry}, r₁.identities.lookup phone = some userId →
        ensureAdminAccount env userId r₁ = .ok r' →
        ∃ userId, r'.identities.lookup phone = some userId ∧
          (accountsNamed userId .admin "Счёт администратора" r').length = 1 := by
      intro userId r₁ hlookup haccount
      have hadds : Adds (fun _ => True) (fun _ => True) (fun _ => True) r₁ r' :=
        ensureAccount_adds (fun _ _ _ _ => trivial) haccount
      exact ⟨userId, hadds.identities.lookup hlookup,
        (ensureAccount_ensures _ _ _ _ _).done r₁ r' haccount⟩
    simp only [ensureAdminWith] at h
    split at h
    · next hnone =>
      obtain ⟨r₁, hadmin, haccount⟩ := andThen_ok.mp h
      have hadds := addAdmin_adds (U := fun _ => True) (A := fun _ => True) (I := fun _ => True)
        (fun _ _ => trivial) hadmin
      exact hkept (hadds.2 hnone) haccount
    · next userId hlookup => exact hkept hlookup h

/-- The rows that the system user is to have. -/
structure RowsThere (userId : Uuid) (r : UserRegistry) : Prop where
  /-- One account of each type and name. -/
  accounts : ∀ x ∈ requiredAccounts, (accountsNamed userId x.1 x.2 r).length = 1
  /-- One inventory of each virtual type. -/
  inventories : ∀ x ∈ requiredInventories, (inventoriesOf userId x.1 r).length = 1

theorem requiredAccounts_pairwise :
    requiredAccounts.zipIdx.Pairwise fun x y => ¬ (y.1.1 = x.1.1 ∧ y.1.2 = x.1.2) := by
  decide

theorem requiredInventories_pairwise :
    requiredInventories.zipIdx.Pairwise fun x y => y.1.1 ≠ x.1.1 := by
  decide

/-- What holds of the elements holds of the numbered elements. -/
theorem forall_mem_zipIdx {α : Type} {P : α → Prop} (l : List α) :
    (∀ x ∈ l.zipIdx, P x.1) ↔ ∀ a ∈ l, P a := by
  rw [← List.forall_mem_map (f := Prod.fst), List.zipIdx_map_fst]

section Stable

variable {userId : Uuid} {type : AccountType} {name : String}

/-- Accounts of other kinds are added. -/
theorem Adds.accountsNamed_eq {U : Uuid × User → Prop} {A : Account → Prop} {I : Inventory → Prop}
    {r r' : UserRegistry} (h : Adds U A I r r')
    (hA : ∀ a, A a → ¬ (a.type = type ∧ a.name = name)) :
    accountsNamed userId type name r' = accountsNamed userId type name r := by
  refine h.accounts.filter_eq fun a ha => ?_
  have hother := hA a ha
  simp only [Bool.and_eq_false_iff, decide_eq_false_iff_not]
  tauto

/-- Inventories of other types are added. -/
theorem Adds.inventoriesOf_eq {U : Uuid × User → Prop} {A : Account → Prop} {I : Inventory → Prop}
    {r r' : UserRegistry} {invType : InventoryType} (h : Adds U A I r r')
    (hI : ∀ i, I i → i.type ≠ invType) : inventoriesOf userId invType r' = inventoriesOf userId invType r := by
  refine h.inventories.filter_eq fun i hi => ?_
  have hother := hI i hi
  simp only [Bool.and_eq_false_iff, decide_eq_false_iff_not]
  exact .inr hother

/-- Users with other roles are added. -/
theorem Adds.systemUsers_eq {U : Uuid × User → Prop} {A : Account → Prop} {I : Inventory → Prop}
    {r r' : UserRegistry} (h : Adds U A I r r') (hU : ∀ u, U u → u.2.role ≠ .system) :
    systemUsers r' = systemUsers r :=
  h.users.filter_eq fun u hu => decide_eq_false (hU u hu)

end Stable

theorem ensureSystemRows_ensures (env : Env) (userId : Uuid) :
    Ensures (ensureSystemRows env userId) (RowsThere userId) := by
  have haccounts : Ensures
      (inTurn (fun x => ensureAccount (env.uuid 1 x.2) userId x.1.1 x.1.2 env.now)
        requiredAccounts.zipIdx)
      fun r => ∀ x ∈ requiredAccounts.zipIdx, (accountsNamed userId x.1.1 x.1.2 r).length = 1 := by
    refine Ensures.inTurn (fun x _ => ensureAccount_ensures _ _ _ _ _) ?_
    refine requiredAccounts_pairwise.imp fun {x y} hne r r' hr hstep => ?_
    have hadds : Adds (fun _ => True) (fun a => a.type = y.1.1 ∧ a.name = y.1.2) (fun _ => True)
        r r' := ensureAccount_adds (fun a _ htype hname => ⟨htype, hname⟩) hstep
    have hsame : accountsNamed userId x.1.1 x.1.2 r' = accountsNamed userId x.1.1 x.1.2 r :=
      hadds.accountsNamed_eq fun a ha hx => hne ⟨ha.1.symm.trans hx.1, ha.2.symm.trans hx.2⟩
    dsimp only
    rw [hsame]
    exact hr
  have hinventories : Ensures
      (inTurn (fun x => ensureInventory (env.uuid 2 x.2) userId x.1.1 x.1.2)
        requiredInventories.zipIdx)
      fun r => ∀ x ∈ requiredInventories.zipIdx, (inventoriesOf userId x.1.1 r).length = 1 := by
    refine Ensures.inTurn (fun x _ => ensureInventory_ensures _ _ _ _) ?_
    refine requiredInventories_pairwise.imp fun {x y} hne r r' hr hstep => ?_
    have hadds : Adds (fun _ => True) (fun _ => True) (fun i => i.type = y.1.1) r r' :=
      ensureInventory_adds (fun i _ htype => htype) hstep
    have hsame : inventoriesOf userId x.1.1 r' = inventoriesOf userId x.1.1 r :=
      hadds.inventoriesOf_eq fun i hi hx => hne (hi.symm.trans hx)
    dsimp only
    rw [hsame]
    exact hr
  have hstable : Stable
      (fun r => ∀ x ∈ requiredAccounts.zipIdx, (accountsNamed userId x.1.1 x.1.2 r).length = 1)
      (inTurn (fun x => ensureInventory (env.uuid 2 x.2) userId x.1.1 x.1.2)
        requiredInventories.zipIdx) := by
    refine Stable.inTurn fun x _ r r' hr hstep y hy => ?_
    have hadds : Adds (fun _ => True) (fun _ => False) (fun _ => True) r r' :=
      ensureInventory_adds (fun _ _ _ => trivial) hstep
    rw [hadds.accountsNamed_eq fun a ha => ha.elim]
    exact hr y hy
  have hboth := haccounts.andThen hinventories hstable
  constructor
  · intro r hr
    refine hboth.skip r ⟨?_, ?_⟩
    · exact (forall_mem_zipIdx requiredAccounts).mpr hr.accounts
    · exact (forall_mem_zipIdx requiredInventories).mpr hr.inventories
  · intro r r' h
    obtain ⟨haccount, hinventory⟩ := hboth.done r r' h
    constructor
    · exact (forall_mem_zipIdx requiredAccounts).mp haccount
    · exact (forall_mem_zipIdx requiredInventories).mp hinventory

/-- All that a start looks for is there, once. -/
structure Installed (c : Settings) (userId : Uuid) (r : UserRegistry) : Prop where
  /-- One user has the system role. -/
  system : (systemUsers r).map Prod.fst = [userId]
  /-- The rows of the system user. -/
  rows : RowsThere userId r
  /-- The anonymous buyer. -/
  walkin : (r.db.users.find? walkinUserId).isSome = true
  /-- The administrator. -/
  admin : AdminThere c r

/-- Rows of the system user stay if no account and no inventory of its kinds is added. -/
theorem RowsThere.of_adds {U : Uuid × User → Prop} {A : Account → Prop} {I : Inventory → Prop}
    {r r' : UserRegistry} {userId : Uuid} (hr : RowsThere userId r) (h : Adds U A I r r')
    (hA : ∀ a, A a → ∀ x ∈ requiredAccounts, a.type ≠ x.1)
    (hI : ∀ i, I i → ∀ x ∈ requiredInventories, i.type ≠ x.1) : RowsThere userId r' := by
  constructor
  · intro x hx
    rw [h.accountsNamed_eq fun a ha hsame => hA a ha x hx hsame.1]
    exact hr.accounts x hx
  · intro x hx
    rw [h.inventoriesOf_eq fun i hi => hI i hi x hx]
    exact hr.inventories x hx

/-- A start that changes nothing finds all there, and a start leaves all there. -/
theorem initData_ensures (env : Env) (c : Settings) :
    Ensures (initData env c) fun r => ∃ userId, Installed c userId r := by
  constructor
  · rintro r ⟨userId, hr⟩
    have hone : (systemUsers r).length = 1 := by
      rw [← List.length_map (f := Prod.fst), hr.system]
      rfl
    refine andThen_ok.mpr ⟨r, ensureSystemUser_ensures.skip r hone, ?_⟩
    refine andThen_ok.mpr ⟨r, ?_, ?_⟩
    · rw [ensureSystemRowsOfUser, hr.system]
      exact (ensureSystemRows_ensures env userId).skip r hr.rows
    have hwalkin : (r.db.users.find? walkinUserId).toList.length = 1 := by
      obtain ⟨u, hu⟩ := Option.isSome_iff_exists.mp hr.walkin
      rw [hu]
      rfl
    refine andThen_ok.mpr ⟨r, (ensureWalkin_ensures env).skip r hwalkin, ?_⟩
    exact (ensureAdmin_ensures env c).skip r hr.admin
  · intro r r' h
    obtain ⟨r₁, hsystem, h⟩ := andThen_ok.mp h
    obtain ⟨r₂, hrows, h⟩ := andThen_ok.mp h
    obtain ⟨r₃, hwalkin, hadmin⟩ := andThen_ok.mp h
    obtain ⟨x, hone⟩ := List.length_eq_one_iff.mp (ensureSystemUser_ensures.done r r₁ hsystem)
    rw [ensureSystemRowsOfUser, hone] at hrows
    have hrows₂ : RowsThere x.1 r₂ := (ensureSystemRows_ensures env x.1).done r₁ r₂ hrows
    -- neither the anonymous buyer nor the administrator gets rows of the system user's kinds
    have hadd₂ := ensureSystemRows_adds (U := fun _ => False) (A := fun _ => True)
      (I := fun _ => True) (fun _ _ => trivial) (fun _ _ => trivial) hrows
    have hadd₃ := ensureWalkin_adds (U := fun u => u.2.role = .clientB2C)
      (A := fun a => a.type = .client) (I := fun i => i.type = .client) (fun _ h => h)
      (fun _ h => h) (fun _ h => h) hwalkin
    have hadd₄ := ensureAdmin_adds (U := fun u => u.2.role = .admin) (A := fun a => a.type = .admin)
      (I := fun _ => False) (fun _ h => h) (fun _ h => h) hadmin
    have hclient : ∀ x ∈ requiredAccounts, x.1 ≠ .client := by decide
    have hadminType : ∀ x ∈ requiredAccounts, x.1 ≠ .admin := by decide
    have hclientStock : ∀ x ∈ requiredInventories, x.1 ≠ .client := by decide
    have hrows₃ : RowsThere x.1 r₃ := hrows₂.of_adds hadd₃
      (fun a ha y hy hsame => hclient y hy (hsame.symm.trans ha))
      (fun i hi y hy hsame => hclientStock y hy (hsame.symm.trans hi))
    refine ⟨x.1, ?_, ?_, ?_, (ensureAdmin_ensures env c).done r₃ r' hadmin⟩
    · have hsame : systemUsers r' = systemUsers r₁ := by
        rw [hadd₄.systemUsers_eq fun u hu => by rw [hu]; decide,
          hadd₃.systemUsers_eq fun u hu => by rw [hu]; decide,
          hadd₂.systemUsers_eq fun _ hu => hu.elim]
      rw [hsame, hone]
      rfl
    · exact hrows₃.of_adds hadd₄ (fun a ha y hy hsame => hadminType y hy (hsame.symm.trans ha))
        fun _ hi => hi.elim
    · have hthere := (ensureWalkin_ensures env).done r₂ r₃ hwalkin
      have hsome : (r₃.db.users.find? walkinUserId).isSome = true := by
        cases hfind : r₃.db.users.find? walkinUserId with
        | none => simp [hfind] at hthere
        | some u => rfl
      obtain ⟨u, hu⟩ := Option.isSome_iff_exists.mp hsome
      exact Option.isSome_iff_exists.mpr ⟨u, hadd₄.users.lookup hu⟩

/-- A start that succeeded leaves nothing to do for any later start, and a start
changes nothing exactly where all that it looks for is there once. -/
theorem start_again (env : Env) (c : Settings) (r : UserRegistry) :
    (initData env c r = .ok r ↔ ∃ userId, Installed c userId r) ∧
      ∀ r', initData env c r = .ok r' → ∀ later, initData later c r' = .ok r' := by
  constructor
  · exact (initData_ensures env c).fixed_iff
  · intro r' hstart later
    have hdone := (initData_ensures env c).done r r' hstart
    exact (initData_ensures later c).skip r' hdone

end Munavvar.Bootstrap
