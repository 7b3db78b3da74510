import Munavvar.ClientAdmission
import Munavvar.ClientReplies

/-!
# Clients are created as a whole or not at all

A command that creates a client stores everything that belongs to the client in
one unit of work, and reads the client back after the commit. The reading asks
for an identity, which a company without a phone number does not have. So an
exception leaves nothing behind exactly if a phone number is given or the tables
refuse the rows of the command.
-/

namespace Munavvar.ClientAtomicity

open Munavvar.KeyedTable
open Munavvar.Transaction
open Munavvar.Database
open Munavvar.Statements
open Munavvar.StockLedger
open Munavvar.ClientService
open Munavvar.ClientEffects
open Munavvar.ClientAdmission
open Munavvar.UnitOfWork
open Munavvar.ClientReplies

/-! ## The rows of a new client -/

/-- Identities belong to users: `identities.user_id` is a foreign key. -/
def Referenced (r : Registry) : Prop :=
  ∀ x ∈ r.identities, (r.db.users.find? x.2).isSome = true

/-- What the creation of a client leaves in the registry. -/
structure Created (env : Env) (username : String) (role : Role) (phone : Option String)
    (r r' : Registry) : Prop where
  /-- The client was not there. -/
  fresh : r.db.users.find? (env.uuid 0 0) = none
  /-- It is there now. -/
  user_eq : r'.db.users.find? (env.uuid 0 0) = some ⟨role, true, username⟩
  /-- It has an identity if there is a phone number. -/
  identities_eq : r'.identities = r.identities ++ phone.toList.map fun p => (p, env.uuid 0 0)

section Rows

variable {env : Env} {username : String} {role : Role} {phone : Option String} {r r' r₁ : Registry}

theorem addClient_created (h : addClient env username role phone r = .ok r') :
    Created env username role phone r r' := by
  obtain ⟨r₁, huser, hphone⟩ := bind_eq_ok.mp h
  simp only [addUser, bind_eq_ok, require_eq_ok] at huser
  obtain ⟨-, -, -, hfresh, huser⟩ := huser
  cases huser
  cases phone with
  | none =>
    cases hphone
    exact ⟨Option.isNone_iff_eq_none.mp hfresh, Table.find?_put_self _ _ _,
      (List.append_nil _).symm⟩
  | some p =>
    simp only [addLocal, bind_eq_ok, require_eq_ok] at hphone
    obtain ⟨-, -, -, -, hphone⟩ := hphone
    cases hphone
    exact ⟨Option.isNone_iff_eq_none.mp hfresh, Table.find?_put_self _ _ _, rfl⟩

theorem Created.of_eq (h : Created env username role phone r r₁)
    (husers : r'.db.users = r₁.db.users) (hidentities : r'.identities = r₁.identities) :
    Created env username role phone r r' := by
  constructor
  · exact h.fresh
  · rw [husers]
    exact h.user_eq
  · rw [hidentities]
    exact h.identities_eq

theorem addAccount_same {id userId : Uuid} {name : String} {now : ℤ}
    (h : addAccount id userId name now r = .ok r') :
    r'.db.users = r.db.users ∧ r'.identities = r.identities := by
  simp only [addAccount, bind_eq_ok] at h
  obtain ⟨-, -, -, -, h⟩ := h
  cases h
  exact ⟨rfl, rfl⟩

theorem addInventory_same {id userId : Uuid} {name : String}
    (h : addInventory id userId name r = .ok r') :
    r'.db.users = r.db.users ∧ r'.identities = r.identities := by
  simp only [addInventory, bind_eq_ok] at h
  obtain ⟨-, -, -, -, h⟩ := h
  cases h
  exact ⟨rfl, rfl⟩

theorem createClient_created {data : ClientCreate} (h : createClient env data r = .ok r') :
    Created env data.username data.role data.phone r r' := by
  obtain ⟨-, -, h⟩ := bind_eq_ok.mp h
  obtain ⟨r₁, hclient, h⟩ := bind_eq_ok.mp h
  obtain ⟨r₂, haccount, h⟩ := bind_eq_ok.mp h
  obtain ⟨husers, hidentities⟩ := addAccount_same haccount
  have hcreated := (addClient_created hclient).of_eq husers hidentities
  split at h
  · obtain ⟨husers, hidentities⟩ := addInventory_same h
    exact hcreated.of_eq husers hidentities
  · cases h
    exact hcreated

theorem onboardClientWithBalance_created {data : ClientOnboardingRequest} {creatorId : Uuid}
    (h : onboardClientWithBalance env data creatorId r = .ok r') :
    Created env data.username data.role data.phone r r' := by
  obtain ⟨-, -, h⟩ := bind_eq_ok.mp h
  obtain ⟨r₁, hclient, h⟩ := bind_eq_ok.mp h
  obtain ⟨r₂, haccount, h⟩ := bind_eq_ok.mp h
  obtain ⟨r₃, hinventory, h⟩ := bind_eq_ok.mp h
  obtain ⟨⟨u, db⟩, hrun, h⟩ := bind_eq_ok.mp h
  cases h
  obtain ⟨husers, hidentities⟩ := addAccount_same haccount
  have haccounted := (addClient_created hclient).of_eq husers hidentities
  obtain ⟨husers, hidentities⟩ := addInventory_same hinventory
  have haddressed := haccounted.of_eq husers hidentities
  have hmovements : wp Regime.serial (firstMovements env data creatorId)
      (fun _ s' => s'.users = r₃.db.users) (fun _ => True) r₃.db :=
    wp_firstMovements Tame.serial env data creatorId fun _ _ _ _ _ => rfl
  exact haddressed.of_eq (wp_serial_run hmovements hrun) rfl

/-- The client that was created is read back if it has a phone number. -/
theorem Created.getClient_iff (hr : Referenced r) (hrole : role = .clientB2C ∨ role = .clientB2B)
    (h : Created env username role phone r r') :
    (∃ response, getClient (env.uuid 0 0) r' = .ok response) ↔ phone.isSome = true := by
  have hclient : getClientWithDetails (env.uuid 0 0) r' = some ⟨role, true, username⟩ := by
    rw [getClientWithDetails, h.user_eq]
    rcases hrole with rfl | rfl
    · rfl
    · rfl
  have hnobody : r.identities.filter (fun x => decide (x.2 = env.uuid 0 0)) = [] := by
    rw [List.filter_eq_nil_iff]
    intro x hx hid
    have hsome := hr x hx
    rw [of_decide_eq_true hid, h.fresh] at hsome
    cases hsome
  rw [getClient, hclient]
  dsimp only
  rw [getByUserAndProvider, h.identities_eq, List.filter_append, hnobody, List.nil_append]
  cases phone with
  | none => simp [bind_eq_ok]
  | some p => simp [bind_eq_ok]

end Rows

/-! ## All or nothing -/

section Atomicity

variable {env : Env} {r : Registry}

/-- What decides about a command that reads back the client it creates. -/
theorem allOrNothing_created_iff {body : Registry → Except Err Registry} {username : String}
    {role : Role} {phone : Option String} {admitted : Prop} (hr : Referenced r)
    (hrole : role = .clientB2C ∨ role = .clientB2B)
    (hcreated : ∀ r', body r = .ok r' → Created env username role phone r r')
    (hstored : phone = none → ((∃ r', body r = .ok r') ↔ admitted)) :
    AllOrNothing (commit body (getClient (env.uuid 0 0)) r) r ↔
      phone.isSome = true ∨ ¬ admitted := by
  cases hbody : body r with
  | error e =>
    have hnothing : AllOrNothing (commit body (getClient (env.uuid 0 0)) r) r :=
      allOrNothing_of_error hbody
    refine ⟨fun _ => ?_, fun _ => hnothing⟩
    cases phone with
    | some p => exact .inl rfl
    | none =>
      refine .inr fun hadmitted => ?_
      obtain ⟨r', hr'⟩ := (hstored rfl).mpr hadmitted
      exact nomatch hbody.symm.trans hr'
  | ok r' =>
    have hclient := hcreated r' hbody
    have hne : r' ≠ r := by
      rintro rfl
      exact nomatch hclient.fresh.symm.trans hclient.user_eq
    rw [allOrNothing_iff_of_ok hbody hne, hclient.getClient_iff hr hrole]
    constructor
    · exact .inl
    · rintro (hphone | hadmitted)
      · exact hphone
      · cases phone with
        | some p => rfl
        | none => exact absurd ((hstored rfl).mp ⟨r', hbody⟩) hadmitted

end Atomicity

/-! ## A company without a phone number -/

/-- What a request brings along. -/
def sampleEnv : Env := ⟨5, fun i j => 10000 + 100 * i + j⟩

/-- The company of the samples, where nobody has an identity. -/
def sampleRegistry : Registry := ⟨Operations.sampleDb, []⟩

theorem sampleRegistry_referenced : Referenced sampleRegistry := fun _ hx => nomatch hx

/-- A company without a phone number and without an address. -/
def phonelessCompany : ClientCreate :=
  { username := "acme"
    phone := none
    role := .clientB2B
    addressName := none
    role_client := .inr rfl
    phone_length := fun _ hp => nomatch hp
    phone_isSome := fun h => nomatch h }

end Munavvar.ClientAtomicity
