import Munavvar.Company
import Munavvar.StockEffects
import Munavvar.ClientEffects

/-!
# Invariants of single orders

What every step of an order and every first order of an onboarding leave true
of the order holds of all orders that any run of the company reaches.
-/

namespace Munavvar.OrderInvariants

open Munavvar.KeyedTable
open Munavvar.Transaction
open Munavvar.Transaction.Prog
open Munavvar.Database
open Munavvar.Statements
open Munavvar.StockLedger
open Munavvar.StockService
open Munavvar.ClientService
open Munavvar.Operations (Request)
open Munavvar.OrderChanges
open Munavvar.OrderEffects
open Munavvar.ContractEffects
open Munavvar.Company
open Munavvar.StockEffects
open Munavvar.ClientEffects

/-- A condition on single orders that requests keep. -/
structure OrderInvariant (ok : ServiceRequest → Directory → Bool) (okClient : ClientOperation → Bool)
    (P : Order → Prop) : Prop where
  /-- It contains what the operations rely on. -/
  orderOk : ∀ {o}, P o → OrderOk o
  /-- A step keeps it. -/
  step : ∀ {R : Regime schema} {r : Request} {d : Directory} {s : Db} {id : Uuid}
    {old : Option Order} {new : Order}, ok (.operation r) d = true → OrderStep R r s id old new →
    (∀ o, old = some o → P o) → P new
  /-- A first order meets it. -/
  first : ∀ {data : ClientOnboardingRequest} {creatorId : Uuid} {env : Env}
    {order : OnboardingOrder} {o : Order},
    okClient (.onboardClientWithBalance data creatorId) = true → data.order = some order →
    FirstOrder env order o → P o

/-- All stored orders meet a condition. -/
def OrdersMeet (P : Order → Prop) (s : Db) : Prop := ∀ id o, s.orders.find? id = some o → P o

section Rule

variable {ok : ServiceRequest → Directory → Bool} {okClient : ClientOperation → Bool}
  {P : Order → Prop}

/-- One change keeps the condition. -/
theorem OrderInvariant.change (h : OrderInvariant ok okClient P) {R : Regime schema} {r : Request}
    {d : Directory} (hr : ok (.operation r) d = true) {s s' : Db} (hs : OrdersMeet P s)
    (hchange : Change R r s s') : OrdersMeet P s' := by
  intro id o ho
  rcases hchange.order_cases id with hsame | ⟨new, hnew, hstep⟩
  · exact hs id o (hsame ▸ ho)
  · cases hnew.symm.trans ho
    exact h.step hr hstep fun x hx => hs id x hx

/-- Every transaction of the services keeps the condition. -/
theorem OrderInvariant.program (h : OrderInvariant ok okClient P) {s : Db} (hs : OrdersMeet P s)
    (r : ServiceRequest) (hr : ok r s.directory = true) :
    wp Regime.concurrent (program r) (fun _ s' => OrdersMeet P s') (fun _ => True) s := by
  have ht : Tame Regime.concurrent fun _ => True := Tame.concurrentAssuming _
  have hlax : Regime.Lax (S := schema) Regime.concurrent := Regime.concurrentAssuming_lax _
  cases r with
  | operation r =>
    have hok : OrdersOk s := fun id o ho => h.orderOk (hs id o ho)
    have hchanges := program_changes (r := r) ht hok fun s₁ _ => releasable_of_lax hlax s₁
    refine wp_mono _ hchanges (fun _ _ hchanges => ?_) fun _ he => he
    exact hchanges.induction hs fun _ _ h₁ hchange => h.change hr h₁ hchange
  | stock env op => exact wp_stock ht (stockProgram_quiet env op) fun _ b st sx => hs

/-- Every command of the client service keeps the condition. -/
theorem OrderInvariant.client (h : OrderInvariant ok okClient P) {env : Env} {op : ClientOperation}
    {r r' : Registry} (hr : OrdersMeet P r.db) (hop : okClient op = true)
    (hrun : op.run env r = .ok r') : OrdersMeet P r'.db := by
  refine run_wp (Q := fun s => OrdersMeet P s) hrun fun s new henrolled _ => ?_
  obtain ⟨users, balances, directory, rfl⟩ := henrolled.same
  refine wp_followUp Tame.serial env op fun b st sx orders horders => ?_
  cases op with
  | onboardClientWithBalance data creatorId =>
    cases horders with
    | none _ horders =>
      intro id o ho
      exact hr id o (horders ▸ ho)
    | some order new horder hfresh hnew hwritten =>
      intro id o ho
      change orders.find? id = some o at ho
      by_cases hid : id = env.uuid 2 0
      · rw [hid, hwritten.find?_self] at ho
        cases ho
        exact h.first hop horder hnew
      · rw [hwritten.find?_ne hid] at ho
        exact hr id o ho
  | _ =>
    intro id o ho
    exact hr id o (horders ▸ ho)

/-- All orders that a run reaches meet the condition. -/
theorem OrderInvariant.reachable (h : OrderInvariant ok okClient P) {r : Registry}
    (hr : OrdersMeet P r.db) {w : World} (hw : Reachable ok okClient (World.init r) w) :
    OrdersMeet P w.sys.db := by
  have hkept := hw.kept (I := OrdersMeet P) (T := fun _ _ => True) (fun _ => trivial)
    (fun r s hs hok => wp_mono _ (h.program hs r hok) (fun _ _ hs' => ⟨hs', trivial⟩)
      fun _ _ => trivial)
    (fun env op r r' hr hop hrun => ⟨h.client hr hop hrun, trivial⟩) hr
  exact hkept.1

end Rule

end Munavvar.OrderInvariants
