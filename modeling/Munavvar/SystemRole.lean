import Munavvar.EventRuns
import Munavvar.Operations
import Munavvar.UserEffects

/-!
# The system role

There is one system user, and the role is not to be assigned through the API.
The update of a user refuses it. The creation of a user and the update of a
client take the same data to the same service and do not look at the role, so
there can be two system users, and then the system user is not found any more.
-/

namespace Munavvar.SystemRole

open Munavvar.KeyedTable
open Munavvar.Transaction
open Munavvar.EventRuns
open Munavvar.Database
open Munavvar.StockLedger
open Munavvar.ClientService
open Munavvar.UserService
open Munavvar.ClientEffects
open Munavvar.UserEffects

/-! ## The endpoints -/

/-- `update_user`. -/
def updateUser (env : Env) (currentAdmin userId : Uuid) (schema : UserAdminUpdate)
    (r : UserRegistry) : Except Err UserRegistry := do
  require (userId ≠ currentAdmin)
    (.badRequest "Нельзя изменять собственный аккаунт через этот эндпоинт."
      "SELF_MODIFICATION_FORBIDDEN" [])
  require (schema.role ≠ some (some .system))
    (.accessForbidden "Нельзя назначить системную роль через API." "SYSTEM_ROLE_FORBIDDEN" [])
  UserService.update env userId schema r

/-- The authorized requests to the endpoints of users and clients. -/
inductive UserRequest
  | createUser (schema : UserAdminCreate)
  | updateUser (currentAdmin userId : Uuid) (schema : UserAdminUpdate)
  | createClient (data : ClientCreate)
  | onboardClient (currentAdmin : Uuid) (data : ClientOnboardingRequest)
  | createClientInventory (clientId : Uuid) (name : String)
  | updateClient (clientId : Uuid) (schema : UserAdminUpdate)

/-- What an endpoint does. -/
def UserRequest.run (env : Env) : UserRequest → UserRegistry → Except Err UserRegistry
  | .createUser schema, r => registerLocalUser env schema r
  | .updateUser currentAdmin userId schema, r =>
    SystemRole.updateUser env currentAdmin userId schema r
  | .createClient data, r => beside r (ClientService.createClient env data r.toRegistry)
  | .onboardClient currentAdmin data, r =>
    beside r (onboardClientWithBalance env data currentAdmin r.toRegistry)
  | .createClientInventory clientId name, r =>
    beside r (ClientService.createClientInventory env clientId name r.toRegistry)
  | .updateClient clientId schema, r => UserService.update env clientId schema r

/-- A request with the identifiers that it draws. -/
def serve (q : Env × UserRequest) (r : UserRegistry) : UserRegistry :=
  attempt (q.2.run q.1) r

/-- `get_system_user`. -/
def getSystemUser (s : Db) : Except Err User :=
  match s.users.select fun _ u => u.role = .system && u.isActive with
  | [] => .error (.userNotFound systemUserId)
  | [user] => .ok user
  | _ :: _ :: _ => .error .multipleResultsFound

/-! ## The system users -/

/-- The users with the system role. -/
def IsSystem (s : Db) (id : Uuid) : Prop := ∃ u, s.users.find? id = some u ∧ u.role = .system

/-- How many of them are active. -/
def activeSystemUsers (s : Db) : ℕ :=
  (s.users.select fun _ u => u.role = .system && u.isActive).length

/-- The system user is not found twice if there is at most one. -/
theorem getSystemUser_ne_iff (s : Db) :
    getSystemUser s ≠ .error .multipleResultsFound ↔ activeSystemUsers s ≤ 1 := by
  unfold getSystemUser activeSystemUsers
  constructor
  · intro hne
    split at hne
    · next hnil =>
      rw [hnil]
      exact Nat.zero_le 1
    · next hone =>
      rw [hone]
      exact le_refl 1
    · exact absurd rfl hne
  · intro hle
    split
    · exact fun h => by cases h
    · exact fun h => by cases h
    · next htwo =>
      rw [htwo, List.length_cons, List.length_cons] at hle
      omega

/-- Nobody becomes a system user, and no system user becomes active. -/
structure NoneAppointed (s s' : Db) : Prop where
  /-- Who has the role had it before. -/
  system : ∀ id, IsSystem s' id → IsSystem s id
  /-- There are not more active ones. -/
  active : activeSystemUsers s' ≤ activeSystemUsers s

theorem NoneAppointed.of_users {s s' : Db} (h : s'.users = s.users) : NoneAppointed s s' := by
  constructor
  · intro id hid
    rw [IsSystem, ← h]
    exact hid
  · rw [activeSystemUsers, h]
    exact le_refl _

theorem NoneAppointed.trans {s s' s'' : Db} (h : NoneAppointed s s')
    (h' : NoneAppointed s' s'') : NoneAppointed s s'' :=
  ⟨fun id hid => h.system id (h'.system id hid), h'.active.trans h.active⟩

/-- One active system user among the rows of a user. -/
def countsAs (u : User) : ℤ := if (u.role = .system && u.isActive) = true then 1 else 0

/-- A user is written with the system role only if that changes nothing. -/
theorem NoneAppointed.of_put {s s' : Db} {id : Uuid} {u : User}
    (husers : s'.users = s.users.put id (some u))
    (hu : u.role = .system → ∃ user, s.users.find? id = some user ∧ user.role = .system ∧
      (u.isActive = true → user.isActive = true)) : NoneAppointed s s' := by
  constructor
  · intro j hj
    obtain ⟨x, hx, hrole⟩ := hj
    rw [husers] at hx
    by_cases hid : j = id
    · subst hid
      rw [Table.find?_put_self] at hx
      cases hx
      obtain ⟨user, hfind, hsystem, -⟩ := hu hrole
      exact ⟨user, hfind, hsystem⟩
    · rw [Table.find?_put_ne _ hid] at hx
      exact ⟨x, hx, hrole⟩
  · have htotal := Table.total_put s.users id (some u) fun _ u => countsAs u
    have hlength : ∀ t : Table Uuid User,
        ((t.select fun _ u => u.role = .system && u.isActive).length : ℤ) =
          t.total fun _ u => countsAs u := fun t => t.length_select _
    have hle : countsAs u ≤ (s.users.find? id).elim 0 countsAs := by
      have hnonneg : ∀ x, 0 ≤ countsAs x := by
        intro x
        unfold countsAs
        split <;> omega
      by_cases hactive : (u.role = .system && u.isActive) = true
      · rw [Bool.and_eq_true, decide_eq_true_eq] at hactive
        obtain ⟨user, hfind, hsystem, hkeeps⟩ := hu hactive.1
        have huser := hkeeps hactive.2
        rw [hfind]
        simp [countsAs, hactive, hsystem, huser]
      · rw [countsAs, if_neg hactive]
        cases s.users.find? id with
        | none => exact le_refl 0
        | some x => exact hnonneg x
    have hcount : (((s.users.put id (some u)).select fun _ u =>
        u.role = .system && u.isActive).length : ℤ) =
        (s.users.select fun _ u => u.role = .system && u.isActive).length -
          (s.users.find? id).elim 0 countsAs + countsAs u := by
      rw [hlength, hlength]
      exact htotal
    rw [activeSystemUsers, activeSystemUsers, husers]
    omega

/-! ## The requests -/

section Requests

variable {env : Env} {r r' : UserRegistry}

/-- A registration appoints nobody if it is not for the system role. -/
theorem registerLocalUser_appoints {schema : UserAdminCreate} (hrole : schema.role ≠ .system)
    (h : registerLocalUser env schema r = .ok r') : NoneAppointed r.db r'.db := by
  obtain ⟨-, opened, hopens, -, -⟩ := registerLocalUser_enters h
  exact .of_put hopens.users_eq fun hsystem => absurd hsystem hrole

/-- A new client is no system user. -/
theorem client_appoints {s s' : Db} {id : Uuid} {u : User} {opened : List Account}
    (hrole : u.role = .clientB2C ∨ u.role = .clientB2B) (h : Enters s s' id u opened) :
    NoneAppointed s s' := by
  refine .of_put h.users_eq fun hsystem => ?_
  rcases hrole with hrole | hrole
  · cases hrole.symm.trans hsystem
  · cases hrole.symm.trans hsystem

/-- An update appoints nobody if it gives the system role only to who has it. -/
theorem update_appoints {id : Uuid} {schema : UserAdminUpdate}
    (hrole : schema.role = some (some .system) →
      (r.db.users.find? id).all (fun u => u.role = .system) = true)
    (h : UserService.update env id schema r = .ok r') : NoneAppointed r.db r'.db := by
  obtain ⟨user, u, opened, hfind, hopens, hset, -, -⟩ := update_enters h
  refine .of_put hopens.users_eq fun hsystem => ?_
  refine ⟨user, hfind, ?_⟩
  rcases hset with hsame | ⟨hactive, hsame | hset⟩
  · subst hsame
    exact ⟨hsystem, fun hactive => hactive⟩
  · exact ⟨hsame.symm.trans hsystem, fun _ => hactive⟩
  · rw [hsystem] at hset
    have hall := hrole hset
    rw [hfind, Option.all_some, decide_eq_true_eq] at hall
    exact ⟨hall, fun _ => hactive⟩

/-- An onboarding appoints nobody: what follows the new client leaves the users alone. -/
theorem onboardClientWithBalance_appoints {data : ClientOnboardingRequest} {creatorId : Uuid}
    {r r' : Registry} (h : onboardClientWithBalance env data creatorId r = .ok r') :
    NoneAppointed r.db r'.db := by
  obtain ⟨-, r₁, a, u, hopens, -, hrun⟩ := onboardClientWithBalance_enters h
  obtain ⟨husers, -⟩ := wp_serial_run (wp_parties _ r₁.db) hrun
  exact (client_appoints data.role_client hopens).trans (.of_users husers)

/-- A user is not created with the system role, and a client is not given it
unless the client has it. -/
def UserRequest.meets : UserRequest → UserRegistry → Bool
  | .createUser schema, _ => schema.role ≠ .system
  | .updateClient id schema, r =>
    schema.role ≠ some (some .system) || (r.db.users.find? id).all fun u => u.role = .system
  | _, _ => true

/-- A request that meets the condition appoints nobody. -/
theorem run_appoints {q : UserRequest} (hmeets : q.meets r = true) (h : q.run env r = .ok r') :
    NoneAppointed r.db r'.db := by
  cases q with
  | createUser schema =>
    have hrole : schema.role ≠ .system := by simpa [UserRequest.meets] using hmeets
    exact registerLocalUser_appoints hrole h
  | updateUser currentAdmin userId schema =>
    obtain ⟨-, -, h⟩ := bind_eq_ok.mp h
    obtain ⟨_, hrole, h⟩ := bind_eq_ok.mp h
    rw [require_eq_ok, decide_eq_true_eq] at hrole
    exact update_appoints (fun hset => absurd hset hrole) h
  | createClient data =>
    obtain ⟨registry, hcreate, rfl⟩ := beside_eq_ok h
    obtain ⟨-, a, hopens, -⟩ := createClient_enters hcreate
    exact client_appoints data.role_client hopens
  | onboardClient currentAdmin data =>
    obtain ⟨registry, honboard, rfl⟩ := beside_eq_ok h
    exact onboardClientWithBalance_appoints honboard
  | createClientInventory clientId name =>
    obtain ⟨registry, haddress, rfl⟩ := beside_eq_ok h
    obtain ⟨-, -, haddress⟩ := bind_eq_ok.mp haddress
    exact .of_users (addInventory_opens haddress).users_eq
  | updateClient clientId schema =>
    refine update_appoints (fun hset => ?_) h
    simpa [UserRequest.meets, hset] using hmeets

end Requests

/-! ## Runs -/

/-- In every run in which no user is created with the system role and no client
is given it, nobody becomes a system user, and the system user is not found
twice unless it was before. -/
theorem system_role_not_assigned {r : UserRegistry} (requests : List (Env × UserRequest))
    (hmeets : Each serve (fun q r => q.2.meets r = true) requests r) :
    (∀ id, IsSystem (serveEach serve requests r).db id → IsSystem r.db id) ∧
      (getSystemUser r.db ≠ .error .multipleResultsFound →
        getSystemUser (serveEach serve requests r).db ≠ .error .multipleResultsFound) := by
  have happoints : NoneAppointed r.db (serveEach serve requests r).db := by
    refine hmeets.relation (R := fun a b : UserRegistry => NoneAppointed a.db b.db)
      (fun _ => .of_users rfl) (fun _ _ _ => NoneAppointed.trans) fun q r hq => ?_
    exact attempt_keeps (I := fun b : UserRegistry => NoneAppointed r.db b.db)
      (.of_users rfl) fun r' h => run_appoints hq h
  refine ⟨happoints.system, fun hstart => ?_⟩
  rw [getSystemUser_ne_iff] at hstart ⊢
  exact happoints.active.trans hstart

/-- A company with its system user and an administrator. -/
def seeded : UserRegistry where
  db := { Operations.sampleDb with
    users := ⟨[(systemUserId, ⟨.system, true, "system"⟩), (5, ⟨.admin, true, "admin"⟩)],
      by decide⟩ }
  identities := [("555", 5)]
  passwords := ["555"]

/-- The identifiers of the rows of a request. -/
def requestEnv : Env := ⟨0, fun i j => 500 + 10 * i + j⟩

/-- A storekeeper is created and renamed, and the system user is told its role. -/
def harmless : List (Env × UserRequest) :=
  [(requestEnv, .createUser (keeper "777")),
    (requestEnv, .updateUser 5 500
      ⟨some (some "storekeeper"), none, false, none, none, by
        rintro name hname
        cases hname
        decide⟩),
    (requestEnv, .updateClient systemUserId
      ⟨none, none, false, some (some .system), none, no_username⟩)]

theorem system_role_not_assigned_sample :
    (∀ id, IsSystem (serveEach serve harmless seeded).db id → IsSystem seeded.db id) ∧
      (getSystemUser seeded.db ≠ .error .multipleResultsFound →
        getSystemUser (serveEach serve harmless seeded).db ≠ .error .multipleResultsFound) :=
  system_role_not_assigned harmless (by decide +kernel)

/-- A second system user is created. -/
def appointing : List (Env × UserRequest) :=
  [(requestEnv, .createUser ⟨.system, "second", "998", by decide⟩)]

/-- The creation of a user takes the system role, and then the system user is
found twice. -/
theorem system_role_assigned :
    ¬ ∀ (r : UserRegistry) (requests : List (Env × UserRequest)),
      getSystemUser r.db ≠ .error .multipleResultsFound →
      (∀ id, IsSystem (serveEach serve requests r).db id → IsSystem r.db id) ∧
        getSystemUser (serveEach serve requests r).db ≠ .error .multipleResultsFound := by
  intro hclaim
  have hstart : getSystemUser seeded.db ≠ .error .multipleResultsFound := by decide +kernel
  obtain ⟨-, honce⟩ := hclaim seeded appointing hstart
  have htwice : getSystemUser (serveEach serve appointing seeded).db =
      .error .multipleResultsFound := by decide +kernel
  exact honce htwice

end Munavvar.SystemRole
