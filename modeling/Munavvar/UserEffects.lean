import Munavvar.UserService
import Munavvar.ClientEffects

/-!
# The effect of the user service

Every command of the user service writes one user, opens accounts for that
user, and leaves the orders alone.
-/

namespace Munavvar.UserEffects

open Munavvar.KeyedTable
open Munavvar.Transaction
open Munavvar.Transaction.Prog
open Munavvar.Database
open Munavvar.StockLedger
open Munavvar.ClientService
open Munavvar.UserService
open Munavvar.StockEffects
open Munavvar.ClientEffects

/-! ## Entering a user -/

/-- Users are written and accounts of one user are opened; orders stay. -/
structure Opens (s s' : Db) (users : Table Uuid User) (id : Uuid) (opened : List Account) :
    Prop where
  /-- The users. -/
  users_eq : s'.users = users
  /-- Orders stay. -/
  orders_eq : s'.orders = s.orders
  /-- The accounts are the last ones. -/
  accounts_eq : s'.directory.accounts = s.directory.accounts ++ opened
  /-- They are the user's and active. -/
  own : ∀ a ∈ opened, a.userId = id ∧ a.isActive = true

/-- A user is written and gets accounts. -/
abbrev Enters (s s' : Db) (id : Uuid) (u : User) (opened : List Account) : Prop :=
  Opens s s' (s.users.put id (some u)) id opened

theorem Opens.refl (s : Db) (id : Uuid) : Opens s s s.users id [] :=
  ⟨rfl, rfl, (List.append_nil _).symm, fun _ h => absurd h List.not_mem_nil⟩

theorem Opens.trans {s s₁ s₂ : Db} {users : Table Uuid User} {id : Uuid}
    {opened opened' : List Account} (h : Opens s s₁ users id opened)
    (h' : Opens s₁ s₂ s₁.users id opened') : Opens s s₂ users id (opened ++ opened') := by
  refine ⟨h'.users_eq.trans h.users_eq, h'.orders_eq.trans h.orders_eq, ?_, fun a ha => ?_⟩
  · rw [h'.accounts_eq, h.accounts_eq, List.append_assoc]
  · rcases List.mem_append.mp ha with ha | ha
    · exact h.own a ha
    · exact h'.own a ha

/-- The accounts of a type among those that are opened. -/
def ofType (opened : List Account) (accountType : AccountType) : List Account :=
  opened.filter fun a => a.type = accountType

/-- Accounts are opened for the user only. -/
theorem Enters.activeAccounts_eq {s s' : Db} {id : Uuid} {u : User} {opened : List Account}
    (h : Enters s s' id u opened) (j : Uuid) (accountType : AccountType) :
    activeAccounts s'.directory j accountType =
      activeAccounts s.directory j accountType ++ if j = id then ofType opened accountType else [] := by
  rw [activeAccounts, h.accounts_eq, List.filter_append]
  congr 1
  by_cases hj : j = id
  · rw [if_pos hj, ofType]
    refine List.filter_congr fun a ha => ?_
    obtain ⟨hown, hactive⟩ := h.own a ha
    simp [hj, hown, hactive]
  · rw [if_neg hj, List.filter_eq_nil_iff]
    intro a ha hmatch
    obtain ⟨hown, -⟩ := h.own a ha
    have hmatch : (a.userId = j ∧ a.type = accountType) ∧ a.isActive = true := by
      simpa using hmatch
    exact hj (hmatch.1.1.symm.trans hown)

/-! ## The commands -/

section Parts

variable {r r' : Registry}

theorem addUser_enters {id : Uuid} {u : User} (h : addUser id u r = .ok r') :
    r.db.users.find? id = none ∧ Enters r.db r'.db id u [] := by
  simp only [addUser, bind_eq_ok, require_eq_ok] at h
  obtain ⟨-, -, -, hfresh, h⟩ := h
  cases h
  refine ⟨Option.isNone_iff_eq_none.mp hfresh, rfl, rfl, (List.append_nil _).symm, ?_⟩
  exact fun _ h => absurd h List.not_mem_nil

theorem addLocal_opens {id : Uuid} {phone : String} (h : addLocal id phone r = .ok r') :
    Opens r.db r'.db r.db.users id [] := by
  simp only [addLocal, bind_eq_ok, require_eq_ok] at h
  obtain ⟨-, -, -, -, h⟩ := h
  cases h
  exact .refl _ _

theorem addInventory_opens {id userId : Uuid} {name : String}
    (h : addInventory id userId name r = .ok r') : Opens r.db r'.db r.db.users userId [] := by
  simp only [addInventory, bind_eq_ok, require_eq_ok] at h
  obtain ⟨-, -, -, -, h⟩ := h
  cases h
  exact ⟨rfl, rfl, (List.append_nil _).symm, fun _ h => absurd h List.not_mem_nil⟩

/-- An account of a type is opened for a user. -/
theorem createAccount_opens {id userId : Uuid} {accountType : AccountType} {name : String}
    {now : ℤ} (h : createAccount id userId accountType name now r = .ok r') :
    Opens r.db r'.db r.db.users userId [⟨id, userId, accountType, true, now, name⟩] := by
  simp only [createAccount, bind_eq_ok, require_eq_ok] at h
  obtain ⟨-, -, -, -, h⟩ := h
  cases h
  refine ⟨rfl, rfl, rfl, fun a ha => ?_⟩
  rw [List.mem_singleton.mp ha]
  exact ⟨rfl, rfl⟩

/-- The accounts that an operation opens leave a courier with one and open none for clients. -/
theorem ensureCourierAccount_opens {env : Env} {userId : Uuid} {u : User}
    (h : ensureCourierAccount env userId u r = .ok r') :
    ∃ opened, Opens r.db r'.db r.db.users userId opened ∧ ofType opened .client = [] ∧
      (u.role = .courier →
        (activeAccounts r.db.directory userId .courier).length +
          (ofType opened .courier).length = 1) := by
  unfold ensureCourierAccount at h
  split at h
  · split at h
    · next hnone =>
      refine ⟨_, createAccount_opens h, rfl, fun _ => ?_⟩
      rw [hnone]
      rfl
    · next account hone =>
      cases h
      refine ⟨[], .refl _ _, rfl, fun _ => ?_⟩
      rw [hone]
      rfl
    · cases h
  · next hrole =>
    cases h
    exact ⟨[], .refl _ _, rfl, fun hcourier => absurd hcourier hrole⟩

/-- A user that is updated is written with the new role. -/
theorem updateUser_enters {id : Uuid} {schema : UserAdminUpdate} {user u : User}
    (h : updateUser id schema user r = .ok (u, r')) :
    Enters r.db r'.db id u [] ∧ user.isActive = true ∧
      setColumn id user.role schema.role = .ok u.role := by
  simp only [updateUser, bind_eq_ok, require_eq_ok] at h
  obtain ⟨-, hactive, role, hrole, isActive, -, username, -, h⟩ := h
  cases h
  refine ⟨⟨rfl, rfl, (List.append_nil _).symm, ?_⟩, hactive, hrole⟩
  exact fun _ h => absurd h List.not_mem_nil

end Parts

@[simp] theorem setPassword_db (phone : String) (password : Bool) (r : UserRegistry) :
    (setPassword phone password r).db = r.db := by
  cases password <;> rfl

/-- Phone numbers and passwords are not in the tables. -/
theorem writeIdentity_db {id : Uuid} {current : Option String} {schema : UserAdminUpdate}
    {r r' : UserRegistry} (h : writeIdentity id current schema r = .ok r') : r'.db = r.db := by
  unfold writeIdentity at h
  split at h
  · unfold applyIdentityChanges at h
    split at h
    · cases h
    · simp only [bind_eq_ok] at h
      obtain ⟨-, -, -, -, h⟩ := h
      cases h
      exact setPassword_db _ _ _
    · cases h
      exact setPassword_db _ _ _
    · simp only [setPhone, bind_eq_ok] at h
      obtain ⟨r₁, ⟨-, -, -, -, hphone⟩, h⟩ := h
      cases hphone
      cases h
      exact setPassword_db _ _ _
  · cases h
    rfl

/-- The role after an update. -/
theorem setColumn_eq_ok {α : Type} {id : Uuid} {current value : α} {column : Option (Option α)}
    (h : setColumn id current column = .ok value) :
    column = none ∧ value = current ∨ column = some (some value) := by
  unfold setColumn at h
  split at h
  · cases h
    exact .inl ⟨rfl, rfl⟩
  · cases h
  · cases h
    exact .inr rfl

section Commands

variable {env : Env} {r r' : UserRegistry}

theorem addClient_enters {username : String} {role : Role} {phone : Option String}
    {r r' : Registry} (h : addClient env username role phone r = .ok r') :
    r.db.users.find? (env.uuid 0 0) = none ∧
      Enters r.db r'.db (env.uuid 0 0) ⟨role, true, username⟩ [] := by
  obtain ⟨r₁, huser, h⟩ := bind_eq_ok.mp h
  obtain ⟨hfresh, henters⟩ := addUser_enters huser
  cases phone with
  | none =>
    cases h
    exact ⟨hfresh, henters⟩
  | some phone => exact ⟨hfresh, henters.trans (addLocal_opens h)⟩

/-- The user is written with the role that an update gives, if there are data to write. -/
theorem writeUser_enters {id : Uuid} {schema : UserAdminUpdate} {user u : User} {r r' : Registry}
    (hfind : r.db.users.find? id = some user) (h : writeUser id schema user r = .ok (u, r')) :
    Enters r.db r'.db id u [] ∧ (u = user ∨ user.isActive = true ∧
      (u.role = user.role ∨ schema.role = some (some u.role))) := by
  unfold writeUser at h
  split at h
  · obtain ⟨henters, hactive, hrole⟩ := updateUser_enters h
    rcases setColumn_eq_ok hrole with ⟨-, hsame⟩ | hset
    · exact ⟨henters, .inr ⟨hactive, .inl hsame⟩⟩
    · exact ⟨henters, .inr ⟨hactive, .inr hset⟩⟩
  · cases h
    have hput := Table.put_eq_self hfind
    refine ⟨?_, .inl rfl⟩
    rw [Enters, hput]
    exact .refl _ _

/-- A new user has the role of the registration and, as a courier, an account. -/
theorem registerLocalUser_enters {schema : UserAdminCreate}
    (h : registerLocalUser env schema r = .ok r') :
    r.db.users.find? (env.uuid 0 0) = none ∧
      ∃ opened, Enters r.db r'.db (env.uuid 0 0) ⟨schema.role, true, schema.username⟩ opened ∧
        ofType opened .client = [] ∧ (schema.role = .courier →
          (activeAccounts r.db.directory (env.uuid 0 0) .courier).length +
            (ofType opened .courier).length = 1) := by
  obtain ⟨-, -, h⟩ := bind_eq_ok.mp h
  obtain ⟨r₁, huser, h⟩ := bind_eq_ok.mp h
  obtain ⟨r₂, hlocal, h⟩ := bind_eq_ok.mp h
  obtain ⟨r₃, hensure, h⟩ := bind_eq_ok.mp h
  cases h
  obtain ⟨hfresh, henters⟩ := addUser_enters huser
  obtain ⟨opened, hopens, hclient, hcourier⟩ := ensureCourierAccount_opens hensure
  have hfirst := henters.trans (addLocal_opens hlocal)
  have hsame : activeAccounts r₂.db.directory (env.uuid 0 0) .courier =
      activeAccounts r.db.directory (env.uuid 0 0) .courier := by
    rw [activeAccounts, activeAccounts, hfirst.accounts_eq, List.append_nil]
    exact congrArg _ (List.append_nil _)
  refine ⟨hfresh, opened, hfirst.trans hopens, hclient, fun hrole => ?_⟩
  rw [← hsame]
  exact hcourier hrole

/-- A new courier has an account. -/
theorem createCourier_enters {data : CourierCreate} (h : createCourier env data r = .ok r') :
    r.db.users.find? (env.uuid 0 0) = none ∧
      ∃ a, Enters r.db r'.db (env.uuid 0 0) ⟨.courier, true, data.username⟩ [a] ∧
        a.type = .courier := by
  obtain ⟨-, -, h⟩ := bind_eq_ok.mp h
  obtain ⟨r₁, huser, h⟩ := bind_eq_ok.mp h
  obtain ⟨r₂, hlocal, h⟩ := bind_eq_ok.mp h
  obtain ⟨r₃, haccount, h⟩ := bind_eq_ok.mp h
  cases h
  obtain ⟨hfresh, henters⟩ := addUser_enters huser
  have hopens := (henters.trans (addLocal_opens hlocal)).trans (createAccount_opens haccount)
  exact ⟨hfresh, _, hopens, rfl⟩

/-- A new client has an account. -/
theorem createClient_enters {data : ClientCreate} {r r' : Registry}
    (h : ClientService.createClient env data r = .ok r') :
    r.db.users.find? (env.uuid 0 0) = none ∧
      ∃ a, Enters r.db r'.db (env.uuid 0 0) ⟨data.role, true, data.username⟩ [a] ∧
        a.type = .client := by
  obtain ⟨-, -, h⟩ := bind_eq_ok.mp h
  obtain ⟨r₁, hclient, h⟩ := bind_eq_ok.mp h
  obtain ⟨r₂, haccount, h⟩ := bind_eq_ok.mp h
  obtain ⟨hfresh, henters⟩ := addClient_enters hclient
  have hopens := henters.trans (createAccount_opens haccount)
  split at h
  · exact ⟨hfresh, _, hopens.trans (addInventory_opens h), rfl⟩
  · cases h
    exact ⟨hfresh, _, hopens, rfl⟩

/-- An onboarding enters a client with an account, and then come the containers
and the first order. -/
theorem onboardClientWithBalance_enters {data : ClientOnboardingRequest} {creatorId : Uuid}
    {r r' : Registry}
    (h : ClientService.onboardClientWithBalance env data creatorId r = .ok r') :
    r.db.users.find? (env.uuid 0 0) = none ∧
      ∃ (r₁ : Registry) (a : Account) (u : Unit),
        Enters r.db r₁.db (env.uuid 0 0) ⟨data.role, true, data.username⟩ [a] ∧
          a.type = .client ∧ (firstMovements env data creatorId).run r₁.db = .ok (u, r'.db) := by
  obtain ⟨-, -, h⟩ := bind_eq_ok.mp h
  obtain ⟨r₁, hclient, h⟩ := bind_eq_ok.mp h
  obtain ⟨r₂, haccount, h⟩ := bind_eq_ok.mp h
  obtain ⟨r₃, hinventory, h⟩ := bind_eq_ok.mp h
  obtain ⟨u, h⟩ := runOn_ok h
  obtain ⟨hfresh, henters⟩ := addClient_enters hclient
  have hopens := (henters.trans (createAccount_opens haccount)).trans
    (addInventory_opens hinventory)
  exact ⟨hfresh, r₃, _, u, hopens, rfl, h⟩

/-- An update writes a user that is there: an archived one only as it is. -/
theorem update_enters {id : Uuid} {schema : UserAdminUpdate}
    (h : UserService.update env id schema r = .ok r') :
    ∃ user u opened, r.db.users.find? id = some user ∧ Enters r.db r'.db id u opened ∧
      (u = user ∨ user.isActive = true ∧
        (u.role = user.role ∨ schema.role = some (some u.role))) ∧
      ofType opened .client = [] ∧ (u.role = .courier →
        (activeAccounts r.db.directory id .courier).length +
          (ofType opened .courier).length = 1) := by
  obtain ⟨-, -, h⟩ := bind_eq_ok.mp h
  obtain ⟨user, huser, h⟩ := bind_eq_ok.mp h
  obtain ⟨current, -, h⟩ := bind_eq_ok.mp h
  obtain ⟨-, -, h⟩ := bind_eq_ok.mp h
  obtain ⟨⟨u, r₁⟩, hwrite, h⟩ := bind_eq_ok.mp h
  obtain ⟨r₂, hidentity, h⟩ := bind_eq_ok.mp h
  obtain ⟨r₃, hensure, h⟩ := bind_eq_ok.mp h
  cases h
  have hfind : r.db.users.find? id = some user := by
    unfold getUser at huser
    split at huser
    · next hfind =>
      cases huser
      exact hfind
    · cases huser
  obtain ⟨henters, hset⟩ := writeUser_enters hfind hwrite
  obtain ⟨opened, hopens, hnone, hcourier⟩ := ensureCourierAccount_opens hensure
  have hdb := writeIdentity_db hidentity
  rw [hdb] at hopens hcourier
  have hsame : activeAccounts r₁.db.directory id .courier =
      activeAccounts r.db.directory id .courier := by
    rw [activeAccounts, activeAccounts, henters.accounts_eq, List.append_nil]
  refine ⟨user, u, opened, hfind, henters.trans hopens, hset, hnone, fun hrole => ?_⟩
  rw [← hsame]
  exact hcourier hrole

theorem beside_eq_ok {r r' : UserRegistry} {result : Except Err Registry}
    (h : beside r result = .ok r') : ∃ registry, result = .ok registry ∧ r' = ⟨registry, r.passwords⟩ := by
  cases result with
  | error e => cases h
  | ok registry =>
    cases h
    exact ⟨registry, rfl, rfl⟩

/-- No transaction writes users or accounts. -/
theorem wp_parties {α : Type} (p : Uow α) (s : Db) :
    wp Regime.serial p (fun _ s' => s'.users = s.users ∧ s'.directory = s.directory)
      (fun _ => True) s := by
  refine Transaction.wp_within (P := fun _ _ => True) (X := fun _ => True) (within_true p)
    (fun _ _ _ _ => trivial) (fun _ _ => trivial) (fun _ _ _ _ _ _ => trivial) ?_ ⟨rfl, rfl⟩
  intro s₁ k st row _ hs _
  refine ⟨?_, (Db.directory_put s₁ k row).trans hs.2⟩
  cases k with
  | user id => exact st.elim
  | _ => exact hs.1

end Commands

end Munavvar.UserEffects
