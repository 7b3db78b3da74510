import Munavvar.Operations
import Munavvar.UserEffects

/-!
# Archived users

An update looks its user up whether archived or not, but writes only the row of
an active user. So it never restores an archived one: as soon as a column of the
user is among the data, the statement finds no row and the exception is the one
of the database layer. What is left are the updates of the phone number and the
password, and the updates that are refused before they write.
-/

namespace Munavvar.ArchivedUsers

open Munavvar.KeyedTable
open Munavvar.Database
open Munavvar.StockLedger
open Munavvar.ClientService
open Munavvar.UserService
open Munavvar.ClientEffects
open Munavvar.UserEffects

/-! ## The commands -/

/-- `archive`: whether an active user was archived, and the registry. -/
def archive (id : Uuid) (r : UserRegistry) : Except Err (Bool × UserRegistry) := do
  require (id ∉ protectedUserIds) (.systemUserDeletionForbidden id)
  match (r.db.users.find? id).filter User.isActive with
  | some user =>
    .ok (true, { r with db := { r.db with
      users := r.db.users.put id (some { user with isActive := false }) } })
  | none => .ok (false, r)

/-- Every exception of the services is an `AppException`; the others come from the database and
its driver, or are a `ValueError`. -/
def isAppException : Err → Bool
  | .multipleResultsFound | .noResultFound => false
  | .checkViolation _ | .uniqueViolation _ | .foreignKeyViolation _ | .notNullViolation _ => false
  | .outOfRange _ | .stringTooLong _ | .immutableHistory _ | .negativeBalance _ => false
  | .incrementNotPositive _ _ | .incrementNoRows _ => false
  | .decrementNotPositive _ _ | .decrementNoRows _ _ => false
  | _ => true

/-! ## What an update promises -/

/-- A user is stored and archived. -/
structure Archived (id : Uuid) (user : User) (r : UserRegistry) : Prop where
  /-- The user is stored. -/
  find : r.db.users.find? id = some user
  /-- It is archived. -/
  archived : user.isActive = false

/-- The columns of a user after an update. -/
def updated (schema : UserAdminUpdate) (user : User) : User :=
  { role := (schema.role.getD none).getD user.role
    isActive := (schema.isActive.getD none).getD user.isActive
    username := (schema.username.getD none).getD user.username }

/-- The numbers of a user's local identities. -/
def numbers (id : Uuid) (r : Registry) : List String :=
  (r.identities.filter fun x => x.2 = id).map Prod.fst

/-- An update is applied: the user and its local identity have changed as the data say. -/
structure Applied (id : Uuid) (schema : UserAdminUpdate) (user : User) (r r' : UserRegistry) :
    Prop where
  /-- The row of the user, and no other, is written. -/
  users_eq : r'.db.users = r.db.users.put id (some (updated schema user))
  /-- The user signs in with the given number, or with the one it had. -/
  numbers_eq : numbers id r'.toRegistry =
    (schema.phone.or (numbers id r.toRegistry).head?).toList
  /-- A given password is the one of that number. -/
  password_mem : schema.password = true → ∀ p ∈ numbers id r'.toRegistry, p ∈ r'.passwords

/-- An update of an archived user is applied or refused by the application, and one that
activates the user is applied. -/
structure Reversible (env : Env) (id : Uuid) (schema : UserAdminUpdate) (user : User)
    (r : UserRegistry) : Prop where
  /-- Archiving is undone. -/
  restores : schema.isActive = some (some true) →
    ∃ r', update env id schema r = .ok r' ∧ Applied id schema user r r'
  /-- No exception of the database leaves the service. -/
  settles : (∃ r', update env id schema r = .ok r' ∧ Applied id schema user r r') ∨
    ∃ e, update env id schema r = .error e ∧ isAppException e = true

/-! ## When an update keeps its promise -/

/-- The user would be staff without a number or a password to sign in with. -/
def LacksSignIn (id : Uuid) (schema : UserAdminUpdate) (user : User) (r : UserRegistry) : Prop :=
  (∃ role ∈ staffRoles, schema.role.getD (some user.role) = some role) ∧
    (numbers id r.toRegistry = [] ∧ schema.phone = none ∨
      (∀ p ∈ numbers id r.toRegistry, p ∉ r.passwords) ∧ schema.password = false)

/-- A password has no number to go with, or the number is in use. -/
def NumberRefused (id : Uuid) (schema : UserAdminUpdate) (r : UserRegistry) : Prop :=
  numbers id r.toRegistry = [] ∧ schema.phone = none ∧ schema.password = true ∨
    ∃ p, schema.phone = some p ∧ numbers id r.toRegistry ≠ [p] ∧
      (r.identities.lookup p).isSome = true

/-- A courier has one account, or one can be opened. -/
def AccountServed (env : Env) (id : Uuid) (user : User) (r : UserRegistry) : Prop :=
  user.role = .courier → (activeAccounts r.db.directory id .courier).length = 1 ∨
    activeAccounts r.db.directory id .courier = [] ∧
      fits 255 (some s!"Касса курьера: {user.username}") = true ∧
      r.db.directory.account? (env.uuid 0 1) = none

/-- An update leaves the columns of the user alone, and its number and the user's account suit
the tables or the number is refused. -/
structure OnlySignIn (env : Env) (id : Uuid) (schema : UserAdminUpdate) (user : User)
    (r : UserRegistry) : Prop where
  /-- No column of the user is among the data. -/
  no_data : schema.hasUserData = false
  /-- The number fits its column. -/
  phone_fits : ∀ p ∈ schema.phone, fits 255 (some p) = true
  /-- The number is refused, or the account is in order. -/
  served : NumberRefused id schema r ∨ AccountServed env id user r

/-- The updates of an archived user that keep their promise. -/
def Settled (env : Env) (id : Uuid) (schema : UserAdminUpdate) (user : User) (r : UserRegistry) :
    Prop :=
  id ∈ protectedUserIds ∧ schema.isActive = some (some false) ∨
    (numbers id r.toRegistry).length ≤ 1 ∧
      (LacksSignIn id schema user r ∨ OnlySignIn env id schema user r)

section Steps

variable {env : Env} {id : Uuid} {schema : UserAdminUpdate} {user : User} {r r' : UserRegistry}

variable {current : Option String}

theorem getLocalByUser_of_eq (h : numbers id r.toRegistry = current.toList) :
    getLocalByUser id r.toRegistry = .ok current := by
  rw [numbers] at h
  rw [getLocalByUser, h]
  cases current with
  | none => rfl
  | some p => rfl

/-- More than one local identity cannot be told apart. -/
theorem getLocalByUser_of_lt (h : 1 < (numbers id r.toRegistry).length) :
    getLocalByUser id r.toRegistry = .error .multipleResultsFound := by
  rw [getLocalByUser]
  unfold numbers at h
  split
  · next hnil => simp [hnil] at h
  · next hone => simp [hone] at h
  · rfl

/-- Staff that could not sign in are refused by the application. -/
theorem validateStaffUpdate_refuses (hnumbers : numbers id r.toRegistry = current.toList)
    (h : LacksSignIn id schema user r) :
    ∃ e, validateStaffUpdate (schema.role.getD (some user.role)) current r.passwords schema id =
      .error e ∧ isAppException e = true := by
  obtain ⟨⟨role, hrole, hnext⟩, hlacks⟩ := h
  rw [hnumbers] at hlacks
  have hstaff : (some role).filter (fun role => decide (role ∈ staffRoles)) = some role := by
    rw [Option.filter_some, if_pos (decide_eq_true hrole)]
  rw [hnext, validateStaffUpdate, hstaff]
  dsimp only
  cases current with
  | none =>
    cases hphone : schema.phone with
    | none => exact ⟨_, rfl, rfl⟩
    | some p =>
      rcases hlacks with ⟨-, hnone⟩ | ⟨-, hpassword⟩
      · exact nomatch hphone.symm.trans hnone
      · refine ⟨.staffPasswordRequired id role, ?_, rfl⟩
        rw [hpassword]
        rfl
  | some p =>
    rcases hlacks with ⟨hnil, -⟩ | ⟨hnever, hpassword⟩
    · exact nomatch hnil
    · refine ⟨.staffPasswordRequired id role, ?_, rfl⟩
      have hp := hnever p (List.mem_singleton_self p)
      simp [require, hp, hpassword, Bind.bind, Except.bind]

theorem validateStaffUpdate_passes (hnumbers : numbers id r.toRegistry = current.toList)
    (h : ¬ LacksSignIn id schema user r) :
    validateStaffUpdate (schema.role.getD (some user.role)) current r.passwords schema id =
      .ok () := by
  rw [validateStaffUpdate]
  split
  · rfl
  · next role hrole =>
    obtain ⟨hnext, hstaff⟩ := Option.filter_eq_some_iff.mp hrole
    have hsignIn : ¬ (current.toList = [] ∧ schema.phone = none ∨
        (∀ p ∈ current.toList, p ∉ r.passwords) ∧ schema.password = false) := by
      rw [← hnumbers]
      exact fun hlacks => h ⟨⟨role, of_decide_eq_true hstaff, hnext⟩, hlacks⟩
    rw [not_or] at hsignIn
    cases current with
    | none =>
      cases hphone : schema.phone with
      | none => simp [hphone] at hsignIn
      | some p => simpa [require, Bind.bind, Except.bind] using hsignIn.2
    | some p =>
      have hpassword := hsignIn.2
      simp only [Option.toList_some, List.mem_singleton, forall_eq, not_and, Bool.not_eq_false]
        at hpassword
      by_cases hp : p ∈ r.passwords
      · simp [require, hp, Bind.bind, Except.bind]
      · simp [require, hp, hpassword hp, Bind.bind, Except.bind]

/-- A number that does not fit its column is refused by the database. -/
theorem writeIdentity_tooLong {phone : String} (hphone : schema.phone = some phone)
    (h : fits 255 (some phone) = false) :
    writeIdentity id current schema r =
      .error (.stringTooLong "identities.provider_identity_id") := by
  rw [writeIdentity, hphone]
  cases current with
  | none => simp [applyIdentityChanges, require, h, Bind.bind, Except.bind]
  | some p => simp [applyIdentityChanges, setPhone, require, h, Bind.bind, Except.bind]

/-- A number that is in use is refused by the application. -/
theorem writeIdentity_refuses (hnumbers : numbers id r.toRegistry = current.toList)
    (hfits : ∀ p ∈ schema.phone, fits 255 (some p) = true) (h : NumberRefused id schema r) :
    ∃ e, writeIdentity id current schema r = .error e ∧ isAppException e = true := by
  rw [NumberRefused, hnumbers] at h
  rcases h with ⟨hnil, hphone, hpassword⟩ | ⟨phone, hphone, hother, htaken⟩
  · cases current with
    | some p => exact nomatch hnil
    | none =>
      rw [writeIdentity, hphone, hpassword]
      exact ⟨_, rfl, rfl⟩
  · have hp := hfits phone hphone
    refine ⟨phoneConflict id, ?_, rfl⟩
    rw [writeIdentity, hphone]
    cases current with
    | none =>
      simp [applyIdentityChanges, require, hp, Option.isNone_iff_eq_none,
        ← Option.not_isSome_iff_eq_none, htaken, Bind.bind, Except.bind]
    | some p =>
      have hne : phone ≠ p := by
        rintro rfl
        exact hother rfl
      simp [applyIdentityChanges, setPhone, require, hp, hne, Option.isNone_iff_eq_none,
        ← Option.not_isSome_iff_eq_none, htaken, Bind.bind, Except.bind]

/-- What the identities look like after a change of number and password. -/
structure SignsIn (id : Uuid) (schema : UserAdminUpdate) (current : Option String)
    (r r' : UserRegistry) : Prop where
  /-- The tables stay. -/
  db_eq : r'.db = r.db
  /-- The user signs in with the given number, or with the one it had. -/
  numbers_eq : numbers id r'.toRegistry = (schema.phone.or current).toList
  /-- A given password is the one of that number. -/
  password_mem : schema.password = true → ∀ p ∈ numbers id r'.toRegistry, p ∈ r'.passwords

@[simp] theorem numbers_setPassword (phone : String) (password : Bool) :
    numbers id (setPassword phone password r).toRegistry = numbers id r.toRegistry := by
  cases password <;> rfl

theorem mem_setPassword {phone : String} {password : Bool} (h : password = true) :
    phone ∈ (setPassword phone password r).passwords := by
  rw [setPassword, if_pos h]
  exact List.mem_cons_self

/-- Numbers are renamed where they stand. -/
theorem numbers_map (r : Registry) (f : String → String) :
    numbers id { r with identities := r.identities.map fun x => (f x.1, x.2) } =
      (numbers id r).map f := by
  simp only [numbers, List.filter_map, List.map_map]
  rfl

/-- The one number of the user gets the password, if there is one. -/
theorem signsIn_setPassword {r₁ : UserRegistry} {phone : String} (hdb : r₁.db = r.db)
    (hnumbers : numbers id r₁.toRegistry = [phone])
    (hphone : schema.phone.or current = some phone) :
    SignsIn id schema current r (setPassword phone schema.password r₁) := by
  constructor
  · exact (setPassword_db _ _ _).trans hdb
  · rw [numbers_setPassword, hnumbers, hphone]
    rfl
  · intro hpassword p hp
    rw [numbers_setPassword, hnumbers] at hp
    rw [List.mem_singleton.mp hp]
    exact mem_setPassword hpassword

/-- A number that is not in use becomes the one of the user. -/
theorem applyIdentityChanges_signsIn {phone : String}
    (hnumbers : numbers id r.toRegistry = current.toList) (hphone : schema.phone = some phone)
    (hfits : fits 255 (some phone) = true)
    (hfree : current ≠ some phone → r.identities.lookup phone = none) :
    ∃ r', applyIdentityChanges id current (some phone) schema.password r = .ok r' ∧
      SignsIn id schema current r r' := by
  have hgiven : schema.phone.or current = some phone := by rw [hphone, Option.some_or]
  cases current with
  | none =>
    have hadded : numbers id { r.toRegistry with
        identities := r.identities ++ [(phone, id)] } = [phone] := by
      rw [numbers] at hnumbers
      simp [numbers, List.filter_append, hnumbers]
    have hsigns : SignsIn id schema none r (setPassword phone schema.password
        { r with identities := r.identities ++ [(phone, id)] }) :=
      signsIn_setPassword rfl hadded hgiven
    refine ⟨_, ?_, hsigns⟩
    simp [applyIdentityChanges, require, hfits, hfree (by simp), Bind.bind, Except.bind]
  | some p =>
    have hset : (decide (phone = p) || (r.identities.lookup phone).isNone) = true := by
      by_cases hsame : phone = p
      · simp [hsame]
      · have hnone := hfree fun h => hsame (Option.some.inj h).symm
        simp [hnone]
    have hrenamed : numbers id { r.toRegistry with
        identities := r.identities.map fun x => (if x.1 = p then phone else x.1, x.2) } = _ :=
      numbers_map r.toRegistry fun q => if q = p then phone else q
    rw [hnumbers] at hrenamed
    simp only [Option.toList_some, List.map_cons, List.map_nil, if_true] at hrenamed
    let r₁ : UserRegistry :=
      { r with
        identities := r.identities.map fun x => (if x.1 = p then phone else x.1, x.2)
        passwords := r.passwords.map fun q => if q = p then phone else q }
    have hmoved : setPhone id p phone r = .ok r₁ := by
      rw [setPhone, hfits, hset]
      rfl
    have hsigns : SignsIn id schema (some p) r (setPassword phone schema.password r₁) :=
      signsIn_setPassword rfl hrenamed hgiven
    refine ⟨_, ?_, hsigns⟩
    rw [applyIdentityChanges, hmoved]
    rfl

/-- What is not refused is written. -/
theorem writeIdentity_signsIn (hnumbers : numbers id r.toRegistry = current.toList)
    (hfits : ∀ p ∈ schema.phone, fits 255 (some p) = true) (h : ¬ NumberRefused id schema r) :
    ∃ r', writeIdentity id current schema r = .ok r' ∧ SignsIn id schema current r r' := by
  rw [NumberRefused, hnumbers, not_or, not_exists] at h
  obtain ⟨hnumber, hfree⟩ := h
  cases hphone : schema.phone with
  | none =>
    cases hpassword : schema.password with
    | false =>
      refine ⟨r, ?_, rfl, ?_, fun h => nomatch hpassword.symm.trans h⟩
      · rw [writeIdentity, hphone, hpassword]
        rfl
      · rw [hnumbers, hphone, Option.none_or]
    | true =>
      cases current with
      | none => exact absurd ⟨rfl, hphone, hpassword⟩ hnumber
      | some p =>
        have hsigns : SignsIn id schema (some p) r (setPassword p schema.password r) :=
          signsIn_setPassword rfl hnumbers (by rw [hphone, Option.none_or])
        refine ⟨_, ?_, hsigns⟩
        rw [writeIdentity, hphone, hpassword]
        rfl
  | some phone =>
    have hwrite : writeIdentity id current schema r =
        applyIdentityChanges id current (some phone) schema.password r := by
      rw [writeIdentity, hphone]
      rfl
    rw [hwrite]
    apply applyIdentityChanges_signsIn hnumbers hphone (hfits phone hphone)
    intro hne
    by_contra htaken
    refine hfree phone ⟨hphone, fun hsame => hne ?_, Option.isSome_iff_ne_none.mpr htaken⟩
    cases current with
    | none => exact nomatch hsame
    | some p => rw [List.singleton_inj.mp hsame]

/-- A courier who is served has or gets an account; users and identities stay. -/
theorem ensureCourierAccount_ok (h : AccountServed env id user r) :
    ∃ registry, ensureCourierAccount env id user r.toRegistry = .ok registry ∧
      registry.db.users = r.db.users ∧ registry.identities = r.identities := by
  rw [ensureCourierAccount]
  by_cases hrole : user.role = .courier
  · rw [if_pos hrole]
    rcases h hrole with hone | ⟨hnone, hfits, hfresh⟩
    · obtain ⟨a, ha⟩ := List.length_eq_one_iff.mp hone
      rw [ha]
      exact ⟨_, rfl, rfl, rfl⟩
    · rw [hnone]
      dsimp only
      rw [createCourierAccount, createAccount, hfits, hfresh]
      exact ⟨_, rfl, rfl, rfl⟩
  · rw [if_neg hrole]
    exact ⟨_, rfl, rfl, rfl⟩

/-- A courier who is not served gets an exception of the database. -/
theorem ensureCourierAccount_raises (h : ¬ AccountServed env id user r) :
    ∃ e, ensureCourierAccount env id user r.toRegistry = .error e ∧ isAppException e = false := by
  rw [AccountServed, Classical.not_imp, not_or] at h
  obtain ⟨hrole, hone, hnone⟩ := h
  rw [ensureCourierAccount, if_pos hrole]
  split
  · next hnil =>
    rw [createCourierAccount, createAccount]
    by_cases hfits : fits 255 (some s!"Касса курьера: {user.username}") = true
    · have hfresh : (r.db.directory.account? (env.uuid 0 1)).isNone = false := by
        rw [Option.isNone_eq_false_iff, Option.isSome_iff_ne_none]
        exact fun hfresh => hnone ⟨hnil, hfits, hfresh⟩
      rw [hfits, hfresh]
      exact ⟨_, rfl, rfl⟩
    · rw [Bool.eq_false_of_not_eq_true hfits]
      exact ⟨_, rfl, rfl⟩
  · next hsingle => exact absurd (by rw [hsingle]; rfl) hone
  · exact ⟨_, rfl, rfl⟩

/-! ## The update of an archived user -/

theorem update_protected (h : id ∈ protectedUserIds ∧ schema.isActive = some (some false)) :
    update env id schema r = .error (.systemUserDeletionForbidden id) := by
  rw [update, decide_eq_false (not_not_intro h)]
  rfl

/-- An update of an archived user that is not protected goes on with its local identity. -/
theorem update_eq (harchived : Archived id user r)
    (h : ¬ (id ∈ protectedUserIds ∧ schema.isActive = some (some false))) :
    update env id schema r = (do
      let localIdentity ← getLocalByUser id r.toRegistry
      validateStaffUpdate (schema.role.getD (some user.role)) localIdentity r.passwords schema id
      let (user, registry) ← writeUser id schema user r.toRegistry
      let r ← writeIdentity id localIdentity schema ⟨registry, r.passwords⟩
      let registry ← ensureCourierAccount env id user r.toRegistry
      .ok ⟨registry, r.passwords⟩) := by
  rw [update, decide_eq_true h, getUser, harchived.find]
  rfl

/-- The row of an archived user is not found by the statement that writes it. -/
theorem writeUser_archived (harchived : Archived id user r) (h : schema.hasUserData = true) :
    writeUser id schema user r.toRegistry = .error .noResultFound := by
  rw [writeUser, if_pos h, updateUser, harchived.archived]
  rfl

/-- Without data of the user only number, password and account are written. -/
theorem update_onlySignIn (harchived : Archived id user r)
    (h : ¬ (id ∈ protectedUserIds ∧ schema.isActive = some (some false)))
    (hnumbers : numbers id r.toRegistry = current.toList) (hstaff : ¬ LacksSignIn id schema user r)
    (hdata : schema.hasUserData = false) :
    update env id schema r = (do
      let r ← writeIdentity id current schema r
      let registry ← ensureCourierAccount env id user r.toRegistry
      .ok ⟨registry, r.passwords⟩) := by
  rw [update_eq harchived h, getLocalByUser_of_eq hnumbers]
  have hpasses := validateStaffUpdate_passes hnumbers hstaff
  have hsame : writeUser id schema user r.toRegistry = .ok (user, r.toRegistry) := by
    rw [writeUser, hdata]
    rfl
  change (do
    validateStaffUpdate (schema.role.getD (some user.role)) current r.passwords schema id
    let (user, registry) ← writeUser id schema user r.toRegistry
    let r ← writeIdentity id current schema ⟨registry, r.passwords⟩
    let registry ← ensureCourierAccount env id user r.toRegistry
    .ok ⟨registry, r.passwords⟩ : Except Err UserRegistry) = _
  rw [hpasses, hsame]
  rfl

/-- No update that writes a column of an archived user succeeds. -/
theorem update_data_error (harchived : Archived id user r) (h : schema.hasUserData = true) :
    ∃ e, update env id schema r = .error e := by
  by_cases hprotected : id ∈ protectedUserIds ∧ schema.isActive = some (some false)
  · exact ⟨_, update_protected hprotected⟩
  · rw [update_eq harchived hprotected, writeUser_archived harchived h]
    cases getLocalByUser id r.toRegistry with
    | error e => exact ⟨e, rfl⟩
    | ok current =>
      let nextRole := schema.role.getD (some user.role)
      change ∃ e, (validateStaffUpdate nextRole current r.passwords schema id >>=
        fun _ => .error .noResultFound) = .error e
      cases validateStaffUpdate nextRole current r.passwords schema id with
      | error e => exact ⟨e, rfl⟩
      | ok _ => exact ⟨_, rfl⟩

theorem exists_toList {α : Type} {l : List α} (h : l.length ≤ 1) : ∃ o : Option α, l = o.toList :=
  match l, h with
  | [], _ => ⟨none, rfl⟩
  | [a], _ => ⟨some a, rfl⟩

theorem AccountServed.congr (h : r'.db = r.db) :
    AccountServed env id user r' ↔ AccountServed env id user r := by
  rw [AccountServed, AccountServed, h]

/-- Without data of the user its columns stay. -/
theorem updated_eq_self (h : schema.hasUserData = false) : updated schema user = user := by
  simp only [UserAdminUpdate.hasUserData, Bool.or_eq_false_iff, Option.isSome_eq_false_iff,
    Option.isNone_iff_eq_none] at h
  obtain ⟨⟨husername, hrole⟩, hactive⟩ := h
  rw [updated, husername, hrole, hactive]
  rfl

/-- Staff that could not sign in are refused before anything is written. -/
theorem update_lacksSignIn (harchived : Archived id user r)
    (h : ¬ (id ∈ protectedUserIds ∧ schema.isActive = some (some false)))
    (hnumbers : numbers id r.toRegistry = current.toList) (hstaff : LacksSignIn id schema user r) :
    ∃ e, update env id schema r = .error e ∧ isAppException e = true := by
  obtain ⟨e, he, happ⟩ := validateStaffUpdate_refuses hnumbers hstaff
  refine ⟨e, ?_, happ⟩
  rw [update_eq harchived h, getLocalByUser_of_eq hnumbers]
  change (validateStaffUpdate (schema.role.getD (some user.role)) current r.passwords schema id >>=
    fun _ => _) = _
  rw [he]
  rfl

/-- A change of number and password alone is applied or refused by the application. -/
theorem OnlySignIn.settles (h : OnlySignIn env id schema user r) (harchived : Archived id user r)
    (hprotected : ¬ (id ∈ protectedUserIds ∧ schema.isActive = some (some false)))
    (hnumbers : numbers id r.toRegistry = current.toList)
    (hstaff : ¬ LacksSignIn id schema user r) :
    (∃ r', update env id schema r = .ok r' ∧ Applied id schema user r r') ∨
      ∃ e, update env id schema r = .error e ∧ isAppException e = true := by
  rw [update_onlySignIn harchived hprotected hnumbers hstaff h.no_data]
  by_cases hrefused : NumberRefused id schema r
  · obtain ⟨e, he, happ⟩ := writeIdentity_refuses hnumbers h.phone_fits hrefused
    rw [he]
    exact .inr ⟨e, rfl, happ⟩
  · obtain ⟨r₁, hr₁, hsigns⟩ := writeIdentity_signsIn hnumbers h.phone_fits hrefused
    have hserved := h.served.resolve_left hrefused
    obtain ⟨registry, hregistry, husers, hidentities⟩ :=
      ensureCourierAccount_ok ((AccountServed.congr hsigns.db_eq).mpr hserved)
    rw [hr₁]
    change (∃ r', (ensureCourierAccount env id user r₁.toRegistry >>=
      fun registry => _) = _ ∧ _) ∨ _
    rw [hregistry]
    have hnumbers' : numbers id registry = numbers id r₁.toRegistry := by
      rw [numbers, numbers, hidentities]
    refine .inl ⟨_, rfl, ?_, ?_, fun hpassword p hp => ?_⟩
    · rw [updated_eq_self h.no_data, Table.put_eq_self harchived.find]
      exact husers.trans (congrArg Db.users hsigns.db_eq)
    · refine hnumbers'.trans (hsigns.numbers_eq.trans ?_)
      rw [hnumbers]
      cases current with
      | none => rfl
      | some p => rfl
    · exact hsigns.password_mem hpassword p (hnumbers' ▸ hp)

/-- A settled update is applied or refused by the application. -/
theorem Settled.settles (h : Settled env id schema user r) (harchived : Archived id user r) :
    (∃ r', update env id schema r = .ok r' ∧ Applied id schema user r r') ∨
      ∃ e, update env id schema r = .error e ∧ isAppException e = true := by
  by_cases hprotected : id ∈ protectedUserIds ∧ schema.isActive = some (some false)
  · exact .inr ⟨_, update_protected hprotected, rfl⟩
  · obtain ⟨hone, h⟩ := h.resolve_left hprotected
    obtain ⟨current, hnumbers⟩ := exists_toList hone
    by_cases hstaff : LacksSignIn id schema user r
    · exact .inr (update_lacksSignIn harchived hprotected hnumbers hstaff)
    · exact (h.resolve_left hstaff).settles harchived hprotected hnumbers hstaff

/-- Any other update ends with an exception of the database. -/
theorem update_raises (harchived : Archived id user r) (h : ¬ Settled env id schema user r) :
    ∃ e, update env id schema r = .error e ∧ isAppException e = false := by
  rw [Settled, not_or] at h
  obtain ⟨hprotected, h⟩ := h
  by_cases hone : (numbers id r.toRegistry).length ≤ 1
  · obtain ⟨hstaff, honly⟩ := not_or.mp fun hsettled => h ⟨hone, hsettled⟩
    obtain ⟨current, hnumbers⟩ := exists_toList hone
    cases hdata : schema.hasUserData with
    | true =>
      refine ⟨.noResultFound, ?_, rfl⟩
      rw [update_eq harchived hprotected, getLocalByUser_of_eq hnumbers,
        writeUser_archived harchived hdata]
      change (validateStaffUpdate (schema.role.getD (some user.role)) current r.passwords schema id
        >>= fun _ => _) = _
      rw [validateStaffUpdate_passes hnumbers hstaff]
      rfl
    | false =>
      rw [update_onlySignIn harchived hprotected hnumbers hstaff hdata]
      by_cases hfits : ∀ p ∈ schema.phone, fits 255 (some p) = true
      · have hserved : ¬ (NumberRefused id schema r ∨ AccountServed env id user r) :=
          fun hserved => honly ⟨hdata, hfits, hserved⟩
        obtain ⟨hrefused, hunserved⟩ := not_or.mp hserved
        obtain ⟨r₁, hr₁, hsigns⟩ := writeIdentity_signsIn hnumbers hfits hrefused
        obtain ⟨e, he, happ⟩ := ensureCourierAccount_raises
          (mt (AccountServed.congr hsigns.db_eq).mp hunserved)
        refine ⟨e, ?_, happ⟩
        rw [hr₁]
        change (ensureCourierAccount env id user r₁.toRegistry >>= fun registry => _) = _
        rw [he]
        rfl
      · simp only [not_forall] at hfits
        obtain ⟨p, hp, hlong⟩ := hfits
        rw [writeIdentity_tooLong hp (Bool.eq_false_of_not_eq_true hlong)]
        exact ⟨_, rfl, rfl⟩
  · refine ⟨.multipleResultsFound, ?_, rfl⟩
    rw [update_eq harchived hprotected, getLocalByUser_of_lt (not_le.mp hone)]
    rfl

/-- The updates of an archived user that keep their promise are settled and do not activate it. -/
theorem reversible_iff (harchived : Archived id user r) :
    Reversible env id schema user r ↔
      schema.isActive ≠ some (some true) ∧ Settled env id schema user r := by
  constructor
  · intro h
    constructor
    · intro hactive
      obtain ⟨r', hr', -⟩ := h.restores hactive
      have hdata : schema.hasUserData = true := by
        simp [UserAdminUpdate.hasUserData, hactive]
      obtain ⟨e, he⟩ : ∃ e, update env id schema r = .error e := update_data_error harchived hdata
      exact nomatch hr'.symm.trans he
    · by_contra hunsettled
      obtain ⟨e, he, hdatabase⟩ : ∃ e, update env id schema r = .error e ∧
        isAppException e = false := update_raises harchived hunsettled
      rcases h.settles with ⟨r', hr', -⟩ | ⟨e', he', happ⟩
      · exact nomatch hr'.symm.trans he
      · have hsame : e = e' := Except.error.inj (he.symm.trans he')
        rw [← hsame, hdatabase] at happ
        exact nomatch happ
  · rintro ⟨hactive, hsettled⟩
    exact ⟨fun h => absurd h hactive, hsettled.settles harchived⟩

/-- Archiving a user that is stored leaves it archived. -/
theorem archive_archived {b : Bool} (hfind : r.db.users.find? id = some user)
    (h : archive id r = .ok (b, r')) : Archived id { user with isActive := false } r' := by
  obtain ⟨-, -, h⟩ := bind_eq_ok.mp h
  rw [hfind] at h
  cases hactive : user.isActive with
  | true =>
    rw [Option.filter_some, if_pos hactive] at h
    cases h
    exact ⟨Table.find?_put_self _ _ _, rfl⟩
  | false =>
    rw [Option.filter_some, if_neg (by simp [hactive])] at h
    cases h
    refine ⟨?_, rfl⟩
    rw [hfind, ← hactive]

end Steps

/-- The client of the samples. -/
def sampleClient : User := ⟨.clientB2B, true, "office"⟩

/-- The company of the samples, whose client signs in with a number. -/
def sampleRegistry : UserRegistry :=
  { db := Operations.sampleDb, identities := [("+998", 7)], passwords := [] }

/-- The company after archiving its client. -/
def archivedRegistry : UserRegistry :=
  { sampleRegistry with
    db := { Operations.sampleDb with
      users := Operations.sampleDb.users.put 7 (some { sampleClient with isActive := false }) } }

/-- What a request brings along. -/
def sampleEnv : Env := ⟨5, fun i j => 10000 + 100 * i + j⟩

/-- The client is to be active again. -/
def activation : UserAdminUpdate :=
  { username := none
    phone := none
    password := false
    role := none
    isActive := some (some true)
    username_length := no_username }

end Munavvar.ArchivedUsers
