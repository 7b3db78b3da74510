import Munavvar.ClientService

/-!
# The user service

The commands that create users or change their roles: the registration of a
user with a phone number and a password, the update of a user, and the creation
of a courier, beside the commands of the client service. A courier gets a
courier's account on each of these ways; a client's account is only made where
clients are made.
-/

namespace Munavvar.UserService

open Munavvar.KeyedTable
open Munavvar.Transaction
open Munavvar.Database
open Munavvar.StockLedger
open Munavvar.ClientService

/-- The registry with the phone numbers whose identities have a password. -/
structure UserRegistry extends Registry where
  /-- `identities.password_hash` is set. -/
  passwords : List String

/-- `STAFF_ROLES`. -/
def staffRoles : List Role := [.admin, .accountant, .storekeeper, .cashier, .courier]

/-- `PROTECTED_USER_IDS`. -/
def protectedUserIds : List Uuid := [systemUserId, walkinUserId]

/-! ## Requests -/

/-- `UserAdminCreate`; the password is not read. -/
structure UserAdminCreate where
  /-- The user's role; the schema admits any. -/
  role : Role
  /-- Name of the user. -/
  username : String
  /-- The phone number by which the user is known. -/
  phone : String
  /-- The schema admits names of 2 to 255 characters. -/
  username_length : 2 ≤ username.length ∧ username.length ≤ 255

/-- A storekeeper. -/
def keeper (phone : String) : UserAdminCreate := ⟨.storekeeper, "keeper", phone, by decide⟩

/-- `UserAdminUpdate`: a field of a user is not set, or null, or has a value. -/
structure UserAdminUpdate where
  /-- Name of the user. -/
  username : Option (Option String)
  /-- The phone number by which the user is known. -/
  phone : Option String
  /-- Whether there is a new password. -/
  password : Bool
  /-- The user's role. -/
  role : Option (Option Role)
  /-- False blocks the user. -/
  isActive : Option (Option Bool)
  /-- The schema admits names of 2 to 255 characters. -/
  username_length : ∀ name, username = some (some name) → 2 ≤ name.length ∧ name.length ≤ 255

/-- Without a name there is no length to check. -/
theorem no_username (name : String) (h : none = some (some name)) :
    2 ≤ name.length ∧ name.length ≤ 255 := nomatch h

/-- `CourierCreate`; the password is not read. -/
structure CourierCreate where
  /-- Name of the courier. -/
  username : String
  /-- The phone number by which the courier is known. -/
  phone : String

/-! ## Accounts -/

/-- The active accounts of a user and a type. -/
def activeAccounts (d : Directory) (userId : Uuid) (accountType : AccountType) : List Account :=
  d.accounts.filter fun a => a.userId = userId && a.type = accountType && a.isActive

/-- `accounts.create`: an account without money. -/
def createAccount (id userId : Uuid) (accountType : AccountType) (name : String) (now : ℤ)
    (r : Registry) : Except Err Registry := do
  require (fits 255 (some name)) (.stringTooLong "accounts.name")
  require (r.db.directory.account? id).isNone (.uniqueViolation "accounts_pkey")
  .ok { r with db := { r.db with
    directory := { r.db.directory with
      accounts := r.db.directory.accounts ++ [⟨id, userId, accountType, true, now, name⟩] }
    accountBalances := r.db.accountBalances.put id (some 0) } }

/-- `create_courier_account`. -/
def createCourierAccount (env : Env) (courierId : Uuid) (courierName : String) (r : Registry) :
    Except Err Registry :=
  createAccount (env.uuid 0 1) courierId .courier s!"Касса курьера: {courierName}" env.now r

/-- `_ensure_courier_account`. -/
def ensureCourierAccount (env : Env) (userId : Uuid) (user : User) (r : Registry) :
    Except Err Registry :=
  if user.role = .courier then
    match activeAccounts r.db.directory userId .courier with
    | [] => createCourierAccount env userId user.username r
    | [_] => .ok r
    | _ :: _ :: _ => .error .multipleResultsFound
  else .ok r

/-! ## Registrations -/

/-- `register_local_user`. A phone number of an archived user passes the check
and is refused by its constraint. -/
def registerLocalUser (env : Env) (schema : UserAdminCreate) (r : UserRegistry) :
    Except Err UserRegistry := do
  require (¬ (r.identities.lookup schema.phone).any fun id =>
    (r.db.users.find? id).any User.isActive) (.userAlreadyExists schema.phone)
  let user : User := ⟨schema.role, true, schema.username⟩
  let registry ← addUser (env.uuid 0 0) user r.toRegistry
  let registry ← addLocal (env.uuid 0 0) schema.phone registry
  let registry ← ensureCourierAccount env (env.uuid 0 0) user registry
  .ok ⟨registry, schema.phone :: r.passwords⟩

/-- `create_courier`. -/
def createCourier (env : Env) (data : CourierCreate) (r : UserRegistry) :
    Except Err UserRegistry := do
  require (r.identities.lookup data.phone).isNone (.courierAlreadyExists data.phone)
  let registry ← addUser (env.uuid 0 0) ⟨.courier, true, data.username⟩ r.toRegistry
  let registry ← addLocal (env.uuid 0 0) data.phone registry
  let registry ← createCourierAccount env (env.uuid 0 0) data.username registry
  .ok ⟨registry, data.phone :: r.passwords⟩

/-! ## Updates -/

/-- `get_local_by_user_or_none`: the phone number of the local identity. -/
def getLocalByUser (userId : Uuid) (r : Registry) : Except Err (Option String) :=
  match (r.identities.filter fun x => x.2 = userId).map Prod.fst with
  | [] => .ok none
  | [phone] => .ok (some phone)
  | _ :: _ :: _ => .error .multipleResultsFound

/-- `_validate_staff_update`: staff sign in with a phone number and a password. -/
def validateStaffUpdate (nextRole : Option Role) (localIdentity : Option String)
    (passwords : List String) (schema : UserAdminUpdate) (userId : Uuid) : Except Err Unit :=
  match nextRole.filter fun role => role ∈ staffRoles with
  | none => .ok ()
  | some role => do
    require (localIdentity.isSome || schema.phone.isSome)
      (.badRequest "Для локального staff-входа требуется номер телефона." "STAFF_PHONE_REQUIRED"
        [("user_id", .id userId), ("role", .role role)])
    require (localIdentity.any (fun phone => phone ∈ passwords) || schema.password)
      (.staffPasswordRequired userId role)

/-- `UserUpdateConflictError` of a column that may not be null. -/
def columnConflict (userId : Uuid) : Err :=
  .userUpdateConflict userId (some "Нарушение уникальности или ограничения базы данных")

/-- `UserUpdateConflictError` of a phone number that is in use. -/
def phoneConflict (userId : Uuid) : Err :=
  .userUpdateConflict userId (some "Номер телефона уже используется другим user'ом.")

/-- The value of a column after an update; null is refused. -/
def setColumn {α : Type} (userId : Uuid) (current : α) : Option (Option α) → Except Err α
  | none => .ok current
  | some none => .error (columnConflict userId)
  | some (some value) => .ok value

/-- The columns of the user are among the data. -/
def UserAdminUpdate.hasUserData (schema : UserAdminUpdate) : Bool :=
  schema.username.isSome || schema.role.isSome || schema.isActive.isSome

/-- `users.update`: only the row of an active user is found. -/
def updateUser (userId : Uuid) (schema : UserAdminUpdate) (user : User) (r : Registry) :
    Except Err (User × Registry) := do
  require user.isActive .noResultFound
  let role ← setColumn userId user.role schema.role
  let isActive ← setColumn userId user.isActive schema.isActive
  let username ← setColumn userId user.username schema.username
  let user : User := { role, isActive, username }
  .ok (user, { r with db := { r.db with users := r.db.users.put userId (some user) } })

/-- A phone number is given to the local identity of a user. -/
def setPhone (userId : Uuid) (current : String) (phone : String) (r : UserRegistry) :
    Except Err UserRegistry := do
  require (fits 255 (some phone)) (.stringTooLong "identities.provider_identity_id")
  require (phone = current || (r.identities.lookup phone).isNone) (phoneConflict userId)
  let renamed (p : String) : String := if p = current then phone else p
  .ok { r with
    identities := r.identities.map fun x => (renamed x.1, x.2)
    passwords := r.passwords.map renamed }

/-- The identity of a phone number gets a password. -/
def setPassword (phone : String) (password : Bool) (r : UserRegistry) : UserRegistry :=
  if password then { r with passwords := phone :: r.passwords } else r

/-- `_apply_identity_changes`. -/
def applyIdentityChanges (userId : Uuid) (localIdentity phone : Option String) (password : Bool)
    (r : UserRegistry) : Except Err UserRegistry :=
  match localIdentity, phone with
  | none, none =>
    .error (.badRequest "Нельзя создать локальный вход без номера телефона."
      "PHONE_REQUIRED_FOR_LOCAL_IDENTITY" [("user_id", .id userId)])
  | none, some phone => do
    require (fits 255 (some phone)) (.stringTooLong "identities.provider_identity_id")
    require (r.identities.lookup phone).isNone (phoneConflict userId)
    .ok (setPassword phone password { r with identities := r.identities ++ [(phone, userId)] })
  | some current, none => .ok (setPassword current password r)
  | some current, some phone => do
    let r ← setPhone userId current phone r
    .ok (setPassword phone password r)

/-- The data of the user are written if there are any. -/
def writeUser (userId : Uuid) (schema : UserAdminUpdate) (user : User) (r : Registry) :
    Except Err (User × Registry) :=
  if schema.hasUserData then updateUser userId schema user r else .ok (user, r)

/-- The phone number and the password are written if there are any. -/
def writeIdentity (userId : Uuid) (localIdentity : Option String) (schema : UserAdminUpdate)
    (r : UserRegistry) : Except Err UserRegistry :=
  if schema.phone.isSome || schema.password then
    applyIdentityChanges userId localIdentity schema.phone schema.password r
  else .ok r

/-- The user that is updated. -/
def getUser (id : Uuid) (r : Registry) : Except Err User :=
  match r.db.users.find? id with
  | some user => .ok user
  | none => .error (.userNotFound id)

/-- `update`. -/
def update (env : Env) (id : Uuid) (schema : UserAdminUpdate) (r : UserRegistry) :
    Except Err UserRegistry := do
  require (¬ (id ∈ protectedUserIds ∧ schema.isActive = some (some false)))
    (.systemUserDeletionForbidden id)
  let user ← getUser id r.toRegistry
  let localIdentity ← getLocalByUser id r.toRegistry
  validateStaffUpdate (schema.role.getD (some user.role)) localIdentity r.passwords schema id
  let (user, registry) ← writeUser id schema user r.toRegistry
  let r ← writeIdentity id localIdentity schema ⟨registry, r.passwords⟩
  let registry ← ensureCourierAccount env id user r.toRegistry
  .ok ⟨registry, r.passwords⟩

/-! ## Commands -/

/-- The ways in which users come into the company or change their role. -/
inductive UserOperation
  | registerLocalUser (schema : UserAdminCreate)
  | update (id : Uuid) (schema : UserAdminUpdate)
  | createClient (data : ClientCreate)
  | onboardClientWithBalance (data : ClientOnboardingRequest) (creatorId : Uuid)
  | createCourier (data : CourierCreate)

/-- A command of the client service beside the passwords. -/
def beside (r : UserRegistry) (result : Except Err Registry) : Except Err UserRegistry :=
  result.map fun registry => ⟨registry, r.passwords⟩

/-- A command on the registry. -/
def UserOperation.run (env : Env) : UserOperation → UserRegistry → Except Err UserRegistry
  | .registerLocalUser schema, r => UserService.registerLocalUser env schema r
  | .update id schema, r => UserService.update env id schema r
  | .createClient data, r => beside r (ClientService.createClient env data r.toRegistry)
  | .onboardClientWithBalance data creatorId, r =>
    beside r (ClientService.onboardClientWithBalance env data creatorId r.toRegistry)
  | .createCourier data, r => UserService.createCourier env data r

/-! ## Additional phone numbers -/

/-- A row of `phone_numbers`. -/
structure PhoneNumber where
  /-- Identifier of the row. -/
  id : Uuid
  /-- The user whose number it is. -/
  userId : Uuid
  /-- The number. -/
  phone : String
  /-- What the number is for. -/
  label : Option String
  /-- False after archiving. -/
  isActive : Bool
  deriving DecidableEq, Repr

/-- The registry with the additional phone numbers of the users. -/
structure PhoneBook extends UserRegistry where
  /-- `phone_numbers`. -/
  phoneNumbers : List PhoneNumber

/-- `PhoneNumberCreate`. -/
structure PhoneNumberCreate where
  /-- The number. -/
  phone : String
  /-- What the number is for. -/
  label : Option String
  /-- The schema admits numbers of 5 to 20 characters. -/
  phone_length : 5 ≤ phone.length ∧ phone.length ≤ 20
  /-- The schema admits labels of at most 50 characters. -/
  label_length : ∀ l, label = some l → l.length ≤ 50

/-- `PhoneNumberUpdate`: the label is not set, or null, or has a value. -/
structure PhoneNumberUpdate where
  /-- What the number is for. -/
  label : Option (Option String)
  /-- The schema admits labels of at most 50 characters. -/
  label_length : ∀ l, label = some (some l) → l.length ≤ 50

/-- `MAX_ADDITIONAL_PHONES`. -/
def maxAdditionalPhones : ℕ := 5

/-- `count_by_user`. -/
def countByUser (userId : Uuid) (b : PhoneBook) : ℕ :=
  (b.phoneNumbers.filter fun p => p.userId = userId && p.isActive).length

/-- `_check_phone_globally_unique`. -/
def checkPhoneGloballyUnique (phone : String) (b : PhoneBook) : Except Err Unit := do
  require (b.identities.lookup phone).isNone (.phoneAlreadyExists phone)
  require (b.phoneNumbers.all fun p => p.phone ≠ phone) (.phoneAlreadyExists phone)

/-- `add_phone`. -/
def addPhone (env : Env) (userId : Uuid) (schema : PhoneNumberCreate) (b : PhoneBook) :
    Except Err PhoneBook := do
  require ((b.db.users.find? userId).any User.isActive) (.userNotFound userId)
  require (countByUser userId b < maxAdditionalPhones)
    (.phoneLimitExceeded userId maxAdditionalPhones)
  checkPhoneGloballyUnique schema.phone b
  require (b.phoneNumbers.all fun p => p.id ≠ env.uuid 0 0) (.phoneAlreadyExists schema.phone)
  .ok { b with
    phoneNumbers := b.phoneNumbers ++ [⟨env.uuid 0 0, userId, schema.phone, schema.label, true⟩] }

/-- The active number of a user that is changed or removed. -/
def requirePhone (userId phoneId : Uuid) (b : PhoneBook) : Except Err Unit :=
  require (b.phoneNumbers.any fun p => p.id = phoneId && p.isActive && p.userId = userId)
    (.phoneNotFound phoneId)

/-- `update_phone`: the schema has no number, so only the label is written. -/
def updatePhone (userId phoneId : Uuid) (data : PhoneNumberUpdate) (b : PhoneBook) :
    Except Err PhoneBook := do
  requirePhone userId phoneId b
  .ok { b with
    phoneNumbers := b.phoneNumbers.map fun p =>
      if p.id = phoneId then { p with label := data.label.getD p.label } else p }

/-- `remove_phone`. -/
def removePhone (userId phoneId : Uuid) (b : PhoneBook) : Except Err PhoneBook := do
  requirePhone userId phoneId b
  .ok { b with phoneNumbers := b.phoneNumbers.filter fun p => p.id ≠ phoneId }

end Munavvar.UserService
