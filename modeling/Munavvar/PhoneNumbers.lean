import Munavvar.EventRuns
import Munavvar.Operations
import Munavvar.UserEffects

/-!
# Phone numbers

A user signs in with a phone number and may have additional ones. Both tables
have a unique column of their own, but only an additional number is looked up in
both of them. A number that one user has as an additional one can therefore
become the number with which another user signs in.
-/

namespace Munavvar.PhoneNumbers

open Munavvar.EventRuns
open Munavvar.Database
open Munavvar.StockLedger
open Munavvar.ClientService
open Munavvar.UserService
open Munavvar.ClientEffects
open Munavvar.UserEffects

/-! ## The numbers to sign in with -/

/-- What a command does to the numbers to sign in with, if it sets one for a user. -/
inductive Signs (l : List (String × Uuid)) (new : Option (Uuid × String)) :
    List (String × Uuid) → Prop
  /-- They stay. -/
  | same : Signs l new l
  /-- The number is added. -/
  | added (id : Uuid) (phone : String) (hnew : new = some (id, phone))
      (hfree : l.lookup phone = none) : Signs l new (l ++ [(phone, id)])
  /-- The number takes the place of the one that the user has. -/
  | moved (id : Uuid) (phone current : String) (hnew : new = some (id, phone))
      (hcurrent : (current, id) ∈ l) (hfree : phone = current ∨ l.lookup phone = none) :
      Signs l new (l.map fun x => (if x.1 = current then phone else x.1, x.2))

section Parts

variable {r r' : Registry}

theorem addUser_identities {id : Uuid} {u : User} (h : addUser id u r = .ok r') :
    r'.identities = r.identities := by
  simp only [addUser, bind_eq_ok] at h
  obtain ⟨-, -, -, -, h⟩ := h
  cases h
  rfl

theorem addLocal_identities {id : Uuid} {phone : String} (h : addLocal id phone r = .ok r') :
    r.identities.lookup phone = none ∧ r'.identities = r.identities ++ [(phone, id)] := by
  simp only [addLocal, bind_eq_ok, require_eq_ok] at h
  obtain ⟨-, -, -, hfree, h⟩ := h
  cases h
  exact ⟨Option.isNone_iff_eq_none.mp hfree, rfl⟩

theorem createAccount_identities {id userId : Uuid} {accountType : AccountType} {name : String}
    {now : ℤ} (h : createAccount id userId accountType name now r = .ok r') :
    r'.identities = r.identities := by
  simp only [createAccount, bind_eq_ok] at h
  obtain ⟨-, -, -, -, h⟩ := h
  cases h
  rfl

theorem addInventory_identities {id userId : Uuid} {name : String}
    (h : addInventory id userId name r = .ok r') : r'.identities = r.identities := by
  simp only [addInventory, bind_eq_ok] at h
  obtain ⟨-, -, -, -, h⟩ := h
  cases h
  rfl

theorem runOn_identities {p : Uow Unit} (h : runOn p r = .ok r') :
    r'.identities = r.identities := by
  obtain ⟨⟨u, db⟩, -, h⟩ := bind_eq_ok.mp h
  cases h
  rfl

theorem ensureCourierAccount_identities {env : Env} {userId : Uuid} {u : User}
    (h : ensureCourierAccount env userId u r = .ok r') : r'.identities = r.identities := by
  unfold ensureCourierAccount at h
  split at h
  · split at h
    · exact createAccount_identities h
    · cases h
      rfl
    · cases h
  · cases h
    rfl

theorem writeUser_identities {id : Uuid} {schema : UserAdminUpdate} {user u : User}
    (h : writeUser id schema user r = .ok (u, r')) : r'.identities = r.identities := by
  unfold writeUser at h
  split at h
  · simp only [updateUser, bind_eq_ok] at h
    obtain ⟨-, -, role, -, isActive, -, username, -, h⟩ := h
    cases h
    rfl
  · cases h
    rfl

/-- The phone number of a new client is added. -/
theorem addClient_signs {env : Env} {username : String} {role : Role} {phone : Option String}
    (h : addClient env username role phone r = .ok r') :
    Signs r.identities (phone.map fun p => (env.uuid 0 0, p)) r'.identities := by
  obtain ⟨r₁, huser, h⟩ := bind_eq_ok.mp h
  have hsame := addUser_identities huser
  cases phone with
  | none =>
    cases h
    rw [hsame]
    exact .same
  | some phone =>
    obtain ⟨hfree, hadded⟩ := addLocal_identities h
    rw [hadded, hsame]
    exact .added _ phone rfl (hsame ▸ hfree)

end Parts

@[simp] theorem setPassword_identities (phone : String) (password : Bool) (r : UserRegistry) :
    (setPassword phone password r).identities = r.identities := by
  cases password <;> rfl

/-- The number that is found for a user is the user's. -/
theorem getLocalByUser_mem {id : Uuid} {current : String} {r : Registry}
    (h : getLocalByUser id r = .ok (some current)) : (current, id) ∈ r.identities := by
  unfold getLocalByUser at h
  split at h
  · cases h
  · next _ hone =>
    cases h
    have hmem : current ∈ (r.identities.filter fun x => x.2 = id).map Prod.fst := by
      rw [hone]
      exact List.mem_singleton_self _
    obtain ⟨⟨p, userId⟩, hx, hp⟩ := List.mem_map.mp hmem
    obtain ⟨hmem, hid⟩ := List.mem_filter.mp hx
    have hid : userId = id := of_decide_eq_true hid
    have hp : p = current := hp
    rw [← hid, ← hp]
    exact hmem
  · cases h

/-- The number of an update is added, or takes the place of the user's own. -/
theorem writeIdentity_signs {id : Uuid} {current : Option String} {schema : UserAdminUpdate}
    {r r' : UserRegistry} (hcurrent : ∀ p, current = some p → (p, id) ∈ r.identities)
    (h : writeIdentity id current schema r = .ok r') :
    Signs r.identities (schema.phone.map fun p => (id, p)) r'.identities := by
  unfold writeIdentity at h
  split at h
  · unfold applyIdentityChanges at h
    split at h
    · cases h
    · next phone hphone =>
      simp only [bind_eq_ok, require_eq_ok] at h
      obtain ⟨-, -, -, hfree, h⟩ := h
      cases h
      rw [setPassword_identities]
      exact .added id phone (by rw [hphone]; rfl) (Option.isNone_iff_eq_none.mp hfree)
    · cases h
      rw [setPassword_identities]
      exact .same
    · next current phone hphone =>
      simp only [setPhone, bind_eq_ok, require_eq_ok] at h
      obtain ⟨r₁, ⟨-, -, -, hfree, hset⟩, h⟩ := h
      cases hset
      cases h
      rw [setPassword_identities]
      rw [Bool.or_eq_true, decide_eq_true_eq, Option.isNone_iff_eq_none] at hfree
      exact .moved id phone current (by rw [hphone]; rfl) (hcurrent current rfl) hfree
  · cases h
    exact .same

/-! ## Commands -/

/-- The user for whom a command sets a number to sign in with. -/
def newIdentity (env : Env) : UserOperation → Option (Uuid × String)
  | .registerLocalUser schema => some (env.uuid 0 0, schema.phone)
  | .update id schema => schema.phone.map fun phone => (id, phone)
  | .createClient data => data.phone.map fun phone => (env.uuid 0 0, phone)
  | .onboardClientWithBalance data _ => data.phone.map fun phone => (env.uuid 0 0, phone)
  | .createCourier data => some (env.uuid 0 0, data.phone)

section Commands

variable {env : Env} {r r' : UserRegistry}

/-- A number is added for a new user with an account of a courier. -/
theorem newUser_signs {id : Uuid} {u : User} {phone : String} {r r₁ r₂ r₃ : Registry}
    (huser : addUser id u r = .ok r₁) (hlocal : addLocal id phone r₁ = .ok r₂)
    (hrest : r₃.identities = r₂.identities) :
    Signs r.identities (some (id, phone)) r₃.identities := by
  have hsame := addUser_identities huser
  obtain ⟨hfree, hadded⟩ := addLocal_identities hlocal
  rw [hrest, hadded, hsame]
  exact .added id phone rfl (hsame ▸ hfree)

theorem update_signs {id : Uuid} {schema : UserAdminUpdate}
    (h : UserService.update env id schema r = .ok r') :
    Signs r.identities (schema.phone.map fun p => (id, p)) r'.identities := by
  obtain ⟨-, -, h⟩ := bind_eq_ok.mp h
  obtain ⟨user, -, h⟩ := bind_eq_ok.mp h
  obtain ⟨current, hcurrent, h⟩ := bind_eq_ok.mp h
  obtain ⟨-, -, h⟩ := bind_eq_ok.mp h
  obtain ⟨⟨u, r₁⟩, hwrite, h⟩ := bind_eq_ok.mp h
  obtain ⟨r₂, hidentity, h⟩ := bind_eq_ok.mp h
  obtain ⟨r₃, hensure, h⟩ := bind_eq_ok.mp h
  cases h
  have hsame := writeUser_identities hwrite
  have hmem : ∀ p, current = some p → (p, id) ∈ r₁.identities := by
    intro p hp
    rw [hp] at hcurrent
    rw [hsame]
    exact getLocalByUser_mem hcurrent
  have hsigns := writeIdentity_signs hmem hidentity
  rw [ensureCourierAccount_identities hensure, ← hsame]
  exact hsigns

theorem createClient_signs {data : ClientCreate} {r r' : Registry}
    (h : ClientService.createClient env data r = .ok r') :
    Signs r.identities (data.phone.map fun p => (env.uuid 0 0, p)) r'.identities := by
  obtain ⟨-, -, h⟩ := bind_eq_ok.mp h
  obtain ⟨r₁, hclient, h⟩ := bind_eq_ok.mp h
  obtain ⟨r₂, haccount, h⟩ := bind_eq_ok.mp h
  have hsame : r₂.identities = r₁.identities := createAccount_identities haccount
  have hsigns := addClient_signs hclient
  split at h
  · rw [addInventory_identities h, hsame]
    exact hsigns
  · cases h
    rw [hsame]
    exact hsigns

theorem onboardClientWithBalance_signs {data : ClientOnboardingRequest} {creatorId : Uuid}
    {r r' : Registry} (h : onboardClientWithBalance env data creatorId r = .ok r') :
    Signs r.identities (data.phone.map fun p => (env.uuid 0 0, p)) r'.identities := by
  obtain ⟨-, -, h⟩ := bind_eq_ok.mp h
  obtain ⟨r₁, hclient, h⟩ := bind_eq_ok.mp h
  obtain ⟨r₂, haccount, h⟩ := bind_eq_ok.mp h
  obtain ⟨r₃, hinventory, h⟩ := bind_eq_ok.mp h
  have hsame : r₂.identities = r₁.identities := createAccount_identities haccount
  rw [runOn_identities h, addInventory_identities hinventory, hsame]
  exact addClient_signs hclient

/-- A command sets at most the number that it is given. -/
theorem run_signs {op : UserOperation} (h : op.run env r = .ok r') :
    Signs r.identities (newIdentity env op) r'.identities := by
  cases op with
  | registerLocalUser schema =>
    obtain ⟨-, -, h⟩ := bind_eq_ok.mp h
    obtain ⟨r₁, huser, h⟩ := bind_eq_ok.mp h
    obtain ⟨r₂, hlocal, h⟩ := bind_eq_ok.mp h
    obtain ⟨r₃, hensure, h⟩ := bind_eq_ok.mp h
    cases h
    exact newUser_signs huser hlocal (ensureCourierAccount_identities hensure)
  | update id schema => exact update_signs h
  | createClient data =>
    obtain ⟨registry, hcreate, rfl⟩ := beside_eq_ok h
    exact createClient_signs hcreate
  | onboardClientWithBalance data creatorId =>
    obtain ⟨registry, honboard, rfl⟩ := beside_eq_ok h
    exact onboardClientWithBalance_signs honboard
  | createCourier data =>
    obtain ⟨-, -, h⟩ := bind_eq_ok.mp h
    obtain ⟨r₁, huser, h⟩ := bind_eq_ok.mp h
    obtain ⟨r₂, hlocal, h⟩ := bind_eq_ok.mp h
    obtain ⟨r₃, haccount, h⟩ := bind_eq_ok.mp h
    cases h
    exact newUser_signs huser hlocal (createAccount_identities haccount)

end Commands

/-! ## Runs -/

/-- What happens next to the phone numbers. -/
inductive PhoneEvent
  /-- A user is created or changed. -/
  | user (env : Env) (op : UserOperation)
  /-- A user gets an additional number. -/
  | addPhone (env : Env) (userId : Uuid) (schema : PhoneNumberCreate)
  /-- The label of a number changes. -/
  | updatePhone (userId phoneId : Uuid) (data : PhoneNumberUpdate)
  /-- An additional number is removed. -/
  | removePhone (userId phoneId : Uuid)

/-- A command on the phone book. -/
def PhoneEvent.run : PhoneEvent → PhoneBook → Except Err PhoneBook
  | .user env op, b => (op.run env b.toUserRegistry).map fun r => ⟨r, b.phoneNumbers⟩
  | .addPhone env userId schema, b => UserService.addPhone env userId schema b
  | .updatePhone userId phoneId data, b => UserService.updatePhone userId phoneId data b
  | .removePhone userId phoneId, b => UserService.removePhone userId phoneId b

/-- The phone book after an event. -/
def serve (e : PhoneEvent) (b : PhoneBook) : PhoneBook := attempt e.run b

/-- No number is in use twice, to sign in with or as an additional one, and
none is in use in both ways by two users. -/
structure UniquePhones (b : PhoneBook) : Prop where
  /-- Numbers to sign in with. -/
  identities : (b.identities.map Prod.fst).Nodup
  /-- Additional numbers. -/
  additional : (b.phoneNumbers.map PhoneNumber.phone).Nodup
  /-- Numbers of both kinds. -/
  apart : ∀ x ∈ b.identities, ∀ p ∈ b.phoneNumbers, x.1 = p.phone → x.2 = p.userId

/-- A number that a user is to sign in with is no additional number of another user. -/
def PhoneEvent.meets : PhoneEvent → PhoneBook → Bool
  | .user env op, b =>
    (newIdentity env op).all fun x => b.phoneNumbers.all fun p => p.phone ≠ x.2 || p.userId = x.1
  | _, _ => true

theorem not_mem_of_lookup {l : List (String × Uuid)} {phone : String}
    (h : l.lookup phone = none) : phone ∉ l.map Prod.fst := by
  intro hmem
  obtain ⟨x, hx, hphone⟩ := List.mem_map.mp hmem
  have hne := List.lookup_eq_none_iff.mp h x hx
  rw [hphone] at hne
  simp at hne

/-- Unique numbers stay unique if the new one is not an additional number of
another user. -/
theorem UniquePhones.sign {b : PhoneBook} (hb : UniquePhones b) {new : Option (Uuid × String)}
    {r : UserRegistry} (h : Signs b.identities new r.identities)
    (hnew : ∀ id phone, new = some (id, phone) → ∀ p ∈ b.phoneNumbers, phone = p.phone →
      id = p.userId) : UniquePhones ⟨r, b.phoneNumbers⟩ := by
  obtain ⟨hidentities, hadditional, hapart⟩ := hb
  generalize hl : r.identities = l at h
  have hgoal : (l.map Prod.fst).Nodup ∧
      ∀ x ∈ l, ∀ p ∈ b.phoneNumbers, x.1 = p.phone → x.2 = p.userId := by
    cases h with
    | same => exact ⟨hidentities, hapart⟩
    | added id phone hset hfree =>
      constructor
      · rw [List.map_append, List.nodup_append]
        refine ⟨hidentities, List.nodup_singleton _, ?_⟩
        intro a ha b' hb' hab
        rw [List.map_singleton, List.mem_singleton] at hb'
        rw [hab, hb'] at ha
        exact not_mem_of_lookup hfree ha
      · intro x hx p hp hphone
        rcases List.mem_append.mp hx with hx | hx
        · exact hapart x hx p hp hphone
        · rw [List.mem_singleton] at hx
          subst hx
          exact hnew id phone hset p hp hphone
    | moved id phone current hset hcurrent hfree =>
      -- the renamed number is the only one of its kind, so no two become the same
      have hne : ∀ x ∈ b.identities, x.1 ≠ current → x.1 ≠ phone := by
        intro x hx hother hsame
        rcases hfree with heq | hnone
        · exact hother (hsame.trans heq)
        · exact not_mem_of_lookup hnone (List.mem_map.mpr ⟨x, hx, hsame⟩)
      constructor
      · rw [List.map_map]
        refine (List.nodup_map_iff_inj_on hidentities.of_map).mpr ?_
        intro x hx y hy hxy
        have hinj := List.inj_on_of_nodup_map hidentities hx hy
        dsimp only [Function.comp_apply] at hxy
        split at hxy <;> split at hxy
        · next hxc hyc => exact hinj (hxc.trans hyc.symm)
        · next hxc hyc => exact absurd hxy.symm (hne y hy hyc)
        · next hxc hyc => exact absurd hxy (hne x hx hxc)
        · exact hinj hxy
      · intro x hx p hp hphone
        obtain ⟨y, hy, rfl⟩ := List.mem_map.mp hx
        dsimp only at hphone ⊢
        split at hphone
        · next hyc =>
          have hown : y = (current, id) :=
            List.inj_on_of_nodup_map hidentities hy hcurrent hyc
          rw [hown]
          exact hnew id phone hset p hp hphone
        · exact hapart y hy p hp hphone
  subst hl
  exact ⟨hgoal.1, hadditional, hgoal.2⟩

/-- An additional number is in neither table before it is added. -/
theorem addPhone_unique {env : Env} {userId : Uuid} {schema : PhoneNumberCreate}
    {b b' : PhoneBook} (hb : UniquePhones b) (h : addPhone env userId schema b = .ok b') :
    UniquePhones b' := by
  simp only [addPhone, checkPhoneGloballyUnique, bind_eq_ok, require_eq_ok] at h
  obtain ⟨-, -, -, -, -, ⟨-, hidentity, hnumber⟩, -, -, h⟩ := h
  cases h
  have hidentity := not_mem_of_lookup (Option.isNone_iff_eq_none.mp hidentity)
  have hnumber : ∀ p ∈ b.phoneNumbers, p.phone ≠ schema.phone := by
    intro p hp
    exact of_decide_eq_true (List.all_eq_true.mp hnumber p hp)
  constructor
  · exact hb.identities
  · rw [List.map_append, List.nodup_append]
    refine ⟨hb.additional, List.nodup_singleton _, ?_⟩
    intro a ha a' ha' hsame
    rw [List.map_singleton, List.mem_singleton] at ha'
    obtain ⟨p, hp, hphone⟩ := List.mem_map.mp ha
    exact hnumber p hp (hphone.trans (hsame.trans ha'))
  · intro x hx p hp hphone
    rcases List.mem_append.mp hp with hp | hp
    · exact hb.apart x hx p hp hphone
    · rw [List.mem_singleton] at hp
      subst hp
      exact absurd (List.mem_map.mpr ⟨x, hx, hphone⟩) hidentity

/-- A label is no number. -/
theorem updatePhone_unique {userId phoneId : Uuid} {data : PhoneNumberUpdate} {b b' : PhoneBook}
    (hb : UniquePhones b) (h : updatePhone userId phoneId data b = .ok b') : UniquePhones b' := by
  simp only [updatePhone, bind_eq_ok] at h
  obtain ⟨-, -, h⟩ := h
  cases h
  have hkeeps : ∀ p : PhoneNumber,
      (if p.id = phoneId then { p with label := data.label.getD p.label } else p).phone = p.phone ∧
        (if p.id = phoneId then { p with label := data.label.getD p.label } else p).userId =
          p.userId := by
    intro p
    split <;> exact ⟨rfl, rfl⟩
  constructor
  · exact hb.identities
  · rw [List.map_map]
    have hsame : (PhoneNumber.phone ∘ fun p : PhoneNumber =>
        if p.id = phoneId then { p with label := data.label.getD p.label } else p) =
          PhoneNumber.phone := funext fun p => (hkeeps p).1
    rw [hsame]
    exact hb.additional
  · intro x hx p hp hphone
    obtain ⟨q, hq, rfl⟩ := List.mem_map.mp hp
    rw [(hkeeps q).1] at hphone
    rw [(hkeeps q).2]
    exact hb.apart x hx q hq hphone

theorem removePhone_unique {userId phoneId : Uuid} {b b' : PhoneBook} (hb : UniquePhones b)
    (h : removePhone userId phoneId b = .ok b') : UniquePhones b' := by
  simp only [removePhone, bind_eq_ok] at h
  obtain ⟨-, -, h⟩ := h
  cases h
  constructor
  · exact hb.identities
  · exact hb.additional.sublist (List.filter_sublist.map _)
  · intro x hx p hp hphone
    exact hb.apart x hx p (List.mem_filter.mp hp).1 hphone

/-- An event that meets the condition keeps the numbers unique. -/
theorem serve_unique {e : PhoneEvent} {b : PhoneBook} (hmeets : e.meets b = true)
    (hb : UniquePhones b) : UniquePhones (serve e b) := by
  refine attempt_keeps hb fun b' h => ?_
  cases e with
  | user env op =>
    cases hrun : op.run env b.toUserRegistry with
    | error e =>
      rw [PhoneEvent.run, hrun] at h
      cases h
    | ok r =>
      rw [PhoneEvent.run, hrun] at h
      cases h
      refine hb.sign (run_signs hrun) fun id phone hset p hp hphone => ?_
      rw [PhoneEvent.meets, hset, Option.all_some, List.all_eq_true] at hmeets
      have hmeets := hmeets p hp
      simp only [Bool.or_eq_true, decide_eq_true_eq] at hmeets
      rcases hmeets with hne | howner
      · exact absurd hphone.symm hne
      · exact howner.symm
  | addPhone env userId schema => exact addPhone_unique hb h
  | updatePhone userId phoneId data => exact updatePhone_unique hb h
  | removePhone userId phoneId => exact removePhone_unique hb h

/-- In every run in which nobody is to sign in with an additional number of
another user, no phone number is in use twice. -/
theorem phone_numbers_unique {b : PhoneBook} (hb : UniquePhones b) (events : List PhoneEvent)
    (hmeets : Each serve (fun e b => e.meets b = true) events b) :
    UniquePhones (serveEach serve events b) :=
  hmeets.invariant hb fun _ _ hmeets hb => serve_unique hmeets hb

/-- The company's phone book with a courier. -/
def sampleBook : PhoneBook where
  db := Operations.sampleDb
  identities := [("666", 6)]
  passwords := ["666"]
  phoneNumbers := []

theorem sampleBook_unique : UniquePhones sampleBook where
  identities := by decide
  additional := by decide
  apart := by decide

/-- The identifiers of the rows of an event. -/
def phoneEnv (i : ℕ) : Env := ⟨0, fun j k => 500 + 100 * i + 10 * j + k⟩

/-- The courier's second number. -/
def secondNumber : PhoneEvent :=
  .addPhone (phoneEnv 0) 6 ⟨"99812", some "home", by decide, by rintro _ ⟨⟩; decide⟩

/-- A courier gets a second number and signs in with it. -/
def ownNumber : List PhoneEvent :=
  [secondNumber,
    .user (phoneEnv 1) (.registerLocalUser (keeper "777")),
    .user (phoneEnv 2) (.update 6 ⟨none, some "99812", false, none, none, no_username⟩),
    .updatePhone 6 500 ⟨some (some "work"), by rintro _ ⟨⟩; decide⟩]

theorem phone_numbers_unique_sample :
    (serveEach serve ownNumber sampleBook).identities = [("99812", 6), ("777", 600)] ∧
      UniquePhones (serveEach serve ownNumber sampleBook) :=
  ⟨by decide +kernel, phone_numbers_unique sampleBook_unique ownNumber (by decide +kernel)⟩

/-- A storekeeper is registered with the courier's second number. -/
def foreignNumber : List PhoneEvent :=
  [secondNumber,
    .user (phoneEnv 1) (.registerLocalUser (keeper "99812"))]

/-- A registration does not look the number up among the additional ones. -/
theorem phone_number_used_twice :
    ¬ ∀ (b : PhoneBook) (events : List PhoneEvent), UniquePhones b →
      UniquePhones (serveEach serve events b) := by
  intro hclaim
  have hunique := hclaim sampleBook foreignNumber sampleBook_unique
  have hidentity : ("99812", (600 : Uuid)) ∈
      (serveEach serve foreignNumber sampleBook).identities := by decide +kernel
  have hnumber : (⟨500, 6, "99812", some "home", true⟩ : PhoneNumber) ∈
      (serveEach serve foreignNumber sampleBook).phoneNumbers := by decide +kernel
  have hsame := hunique.apart _ hidentity _ hnumber rfl
  cases hsame

end Munavvar.PhoneNumbers
