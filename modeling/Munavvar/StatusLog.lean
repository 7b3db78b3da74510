import Munavvar.ClientEffects
import Munavvar.Journal

/-!
# The status log of an order

Whoever changes the status of an order adds an entry to its log, and whoever
makes an order begins one, except the onboarding of a client with a first order.
In runs without such an onboarding, the log of every order starts at its
creation, goes along allowed steps and ends in the current status.
-/

namespace Munavvar.StatusLog

open Munavvar.KeyedTable
open Munavvar.Transaction
open Munavvar.Transaction.Prog
open Munavvar.ReadCommitted
open Munavvar.Journal
open Munavvar.Database
open Munavvar.Statements
open Munavvar.StockLedger
open Munavvar.OrderQueries
open Munavvar.OrderService
open Munavvar.ClientService
open Munavvar.Operations (Request sampleDb sampleRequest)
open Munavvar.OrderChanges
open Munavvar.OrderEffects
open Munavvar.ContractEffects
open Munavvar.StockEffects
open Munavvar.ClientEffects
open Munavvar.Company

/-! ## Logs -/

/-- A step of a log: a self-loop, an edge of the transition tables, an assignment or a pickup. -/
def isAllowedStep (saleType : SaleType) (e : OrderStatusLog) : Bool :=
  match e.oldStatus with
  | none => true
  | some old =>
    e.newStatus = old || e.newStatus ∈ getAllowedStatuses saleType old ||
      (old = .new && e.newStatus = .assigned) || (old = .new && e.newStatus = .pickupCompleted)

/-- The log of an order tells its whole history. -/
structure TellsHistory (o : Order) : Prop where
  /-- It starts with the creation. -/
  created : (o.statusLogs.head?).map OrderStatusLog.oldStatus = some none
  /-- Each entry starts where the one before it ended, and the last one at the current status. -/
  chain : follow OrderStatusLog.oldStatus OrderStatusLog.newStatus none o.statusLogs =
    some (some o.status)
  /-- Every step is allowed. -/
  allowed : ∀ e ∈ o.statusLogs, isAllowedStep o.saleType e = true

/-- An order is pending or settled; a pickup is never under way. -/
structure Traced (o : Order) : Prop where
  /-- The log tells the history. -/
  tells : TellsHistory o
  /-- A pickup has no courier's status. -/
  pickup : o.saleType = .warehousePickup →
    o.status = .new ∨ o.status = .pickupCompleted ∨ o.status = .cancelled

/-- One more entry that starts at the current status. -/
theorem TellsHistory.concat {o new : Order} (h : TellsHistory o) {e : OrderStatusLog}
    (hlogs : new.statusLogs = o.statusLogs ++ [e]) (hsale : new.saleType = o.saleType)
    (hfrom : e.oldStatus = some o.status) (hto : e.newStatus = new.status)
    (hstep : isAllowedStep o.saleType e = true) : TellsHistory new := by
  constructor
  · have hcreated := h.created
    rw [hlogs]
    cases hold : o.statusLogs with
    | nil => simp [hold] at hcreated
    | cons first rest =>
      rw [hold] at hcreated
      exact hcreated
  · have hchain := follow_concat h.chain hfrom
    rw [hlogs, hchain, hto]
  · intro x hx
    rw [hlogs] at hx
    rw [hsale]
    rcases List.mem_append.mp hx with hx | hx
    · exact h.allowed x hx
    · rw [List.mem_singleton.mp hx]
      exact hstep

/-- A log of one entry for the creation. -/
theorem tellsHistory_of_created {o : Order} {status : OrderStatus} {by_ : Option Uuid}
    {reason : Option String} (hlogs : o.statusLogs = [⟨none, status, by_, reason⟩])
    (hstatus : o.status = status) : TellsHistory o := by
  constructor
  · rw [hlogs]
    rfl
  · rw [hlogs, hstatus]
    rfl
  · intro e he
    rw [hlogs, List.mem_singleton] at he
    rw [he]
    rfl

/-- A log that is not touched while the status stays. -/
theorem TellsHistory.congr {o new : Order} (h : TellsHistory o)
    (hlogs : new.statusLogs = o.statusLogs) (hsale : new.saleType = o.saleType)
    (hstatus : new.status = o.status) : TellsHistory new := by
  constructor
  · rw [hlogs]
    exact h.created
  · rw [hlogs, hstatus]
    exact h.chain
  · rw [hlogs, hsale]
    exact h.allowed

/-- Every step of an order is logged and allowed. -/
theorem step_traced {R : Regime schema} {r : Request} {s : Db} {id : Uuid} {old : Option Order}
    {new : Order} (h : OrderStep R r s id old new) (hold : ∀ o, old = some o → Traced o) :
    Traced new := by
  cases h with
  | placed hstatus hsale hitems hnodup htotal hreserved hcreated hlogs =>
    constructor
    · exact tellsHistory_of_created hlogs hstatus
    · exact fun _ => .inl hstatus
  | sold hstatus hsale hitems htotal hcontract hreserved hcreated hlogs =>
    constructor
    · exact tellsHistory_of_created hlogs hstatus
    · exact fun _ => .inr (.inl hstatus)
  | @lineAdded o =>
    have ho := hold o rfl
    exact ⟨ho.tells.congr rfl rfl rfl, ho.pickup⟩
  | @lineRemoved o =>
    have ho := hold o rfl
    exact ⟨ho.tells.congr rfl rfl rfl, ho.pickup⟩
  | @assigned o courierId hstatus hsale =>
    have ho := hold o rfl
    constructor
    · refine ho.tells.concat rfl rfl rfl rfl ?_
      rcases hstatus with hstatus | hstatus <;> simp [isAllowedStep, hstatus]
    · intro hpickup
      cases hsale.symm.trans hpickup
  | @moved o newStatus by_ kept logged hstatus =>
    have ho := hold o rfl
    constructor
    · refine ho.tells.concat rfl rfl rfl rfl ?_
      rcases hstatus with rfl | ⟨hsale, ⟨hstatus, rfl⟩ | ⟨hstatus, rfl⟩⟩
      · simp [isAllowedStep]
      · simp [isAllowedStep, hsale, hstatus, getAllowedStatuses, deliveryAllowedTransitions]
      · simp [isAllowedStep, hsale, hstatus, getAllowedStatuses, deliveryAllowedTransitions]
    · intro hpickup
      rcases hstatus with rfl | ⟨hsale, -⟩
      · exact ho.pickup hpickup
      · cases hsale.symm.trans hpickup
  | @cancelled o by_ kept logged hstatus =>
    have ho := hold o rfl
    constructor
    · refine ho.tells.concat rfl rfl rfl rfl ?_
      simp only [List.mem_cons, List.not_mem_nil, or_false] at hstatus
      cases hsale : o.saleType with
      | delivery =>
        rcases hstatus with hstatus | hstatus | hstatus | hstatus <;>
          simp [isAllowedStep, hstatus, getAllowedStatuses, deliveryAllowedTransitions]
      | warehousePickup =>
        -- of the open statuses a pickup can only be new
        have hnew : o.status = .new := by
          rcases ho.pickup hsale with h | h | h
          · exact h
          · simp [h] at hstatus
          · simp [h] at hstatus
        simp [isAllowedStep, hnew, getAllowedStatuses, pickupAllowedTransitions]
    · exact fun _ => .inr (.inr rfl)
  | @delivered o items total by_ logged hstatus hsale =>
    have ho := hold o rfl
    constructor
    · refine ho.tells.concat rfl rfl rfl rfl ?_
      simp [isAllowedStep, hsale, hstatus, getAllowedStatuses, deliveryAllowedTransitions]
    · intro hpickup
      cases hsale.symm.trans hpickup
  | @pickedUp o by_ hstatus hsale =>
    have ho := hold o rfl
    constructor
    · refine ho.tells.concat rfl rfl (congrArg some hstatus.symm) rfl ?_
      simp [isAllowedStep]
    · exact fun _ => .inr (.inl rfl)

/-! ## Runs -/

/-- All orders are in order, and so are their logs. -/
structure LogsKept (s : Db) : Prop where
  /-- The orders are in order. -/
  ordersOk : OrdersOk s
  /-- Their logs are complete. -/
  traced : ∀ id o, s.orders.find? id = some o → Traced o

theorem LogsKept.of_orders_eq {s s' : Db} (h : LogsKept s) (horders : s'.orders = s.orders) :
    LogsKept s' := by
  constructor
  · intro id o ho
    exact h.ordersOk id o (horders ▸ ho)
  · intro id o ho
    exact h.traced id o (horders ▸ ho)

theorem LogsKept.change {R : Regime schema} {r : Request} {s s' : Db} (h : LogsKept s)
    (hchange : Change R r s s') : LogsKept s' := by
  constructor
  · exact hchange.ordersOk h.ordersOk
  · intro id o ho
    rcases hchange.order_cases id with hsame | ⟨new, hnew, hstep⟩
    · exact h.traced id o (hsame ▸ ho)
    · cases hnew.symm.trans ho
      exact step_traced hstep fun o ho => h.traced id o ho

/-- Every transaction of the services keeps the logs. -/
theorem program_logsKept {s : Db} (h : LogsKept s) (r : ServiceRequest) :
    wp Regime.concurrent (program r) (fun _ s' => LogsKept s') (fun _ => True) s := by
  have ht : Tame Regime.concurrent fun _ => True := Tame.concurrentAssuming _
  have hlax : Regime.Lax (S := schema) Regime.concurrent := Regime.concurrentAssuming_lax _
  cases r with
  | operation r =>
    have hchanges := program_changes (r := r) ht h.ordersOk fun s₁ _ => releasable_of_lax hlax s₁
    refine wp_mono _ hchanges (fun _ _ hchanges => ?_) fun _ he => he
    exact hchanges.induction h fun _ _ h₁ hchange => h₁.change hchange
  | stock env op =>
    exact wp_stock ht (stockProgram_quiet env op) fun _ b st sx => h.of_orders_eq rfl

/-- A command that does not onboard a client with a first order. -/
def noFirstOrder : ClientOperation → Bool
  | .onboardClientWithBalance data _ => data.order.isNone
  | _ => true

/-- A command without a first order makes no order. -/
theorem client_orders_eq {env : Env} {op : ClientOperation} {r r' : Registry}
    (hop : noFirstOrder op = true) (h : op.run env r = .ok r') : r'.db.orders = r.db.orders := by
  refine run_wp (Q := fun s => s.orders = r.db.orders) h fun s new henrolled _ => ?_
  obtain ⟨users, balances, directory, rfl⟩ := henrolled.same
  refine wp_followUp Tame.serial env op fun b st sx orders horders => ?_
  cases op with
  | onboardClientWithBalance data creatorId =>
    cases horders with
    | none _ horders => exact horders
    | some order _ horder => simp [noFirstOrder, horder] at hop
  | _ => exact horders

/-- The registry before the first order. -/
def noOrders (r : Registry) : Registry := { r with db := { r.db with orders := .empty } }

theorem noOrders_logsKept (r : Registry) : LogsKept (noOrders r).db where
  ordersOk id o ho := absurd ho (by simp [noOrders])
  traced id o ho := absurd ho (by simp [noOrders])

/-- In every run in which no client is onboarded with a first order, the log of
every order tells its whole history. -/
theorem status_log_tells_history (r : Registry) {w : World}
    (h : Reachable (fun _ _ => true) noFirstOrder (World.init (noOrders r)) w) :
    ∀ id o, w.sys.db.orders.find? id = some o → TellsHistory o := by
  have hkept := h.kept (I := LogsKept) (T := fun _ _ => True) (fun _ => trivial)
    (fun r s hs _ => wp_mono _ (program_logsKept hs r) (fun _ _ hs' => ⟨hs', trivial⟩) fun _ he => he)
    (fun env op r r' hr hop hrun => ⟨hr.of_orders_eq (client_orders_eq hop hrun), trivial⟩)
    (noOrders_logsKept r)
  exact fun id o ho => (hkept.1.traced id o ho).tells

/-! ## Two runs -/

/-- A person who is onboarded on the first day, possibly with a first order. -/
def newcomer (order : Option OnboardingOrder) : ClientOnboardingRequest :=
  ⟨"newcomer", some "998", "home", .clientB2C, none, 0, order, .inl rfl, by decide, by decide,
    fun _ => rfl⟩

/-- A client is onboarded, and another one orders coffee, which is assigned and sent. -/
def deliveryEvents : List Event :=
  .client ⟨0, fun i j => 500 + 10 * i + j⟩ (.onboardClientWithBalance (newcomer none) 9) ::
    (served 0 (.operation
        (sampleRequest 0 0 (.createOrder 7 ⟨[⟨23, 2, Operations.two_pieces⟩], .cash, 5, false, none⟩))) 6 ++
      served 1 (.operation (sampleRequest 1 1 (.assignCourier 10000 6))) 5 ++
      served 2 (.operation (sampleRequest 2 2 (.updateStatus 10000 .inTransit [] none none))) 3)

/-- The statuses in the log of an order. -/
def loggedStatuses (id : Uuid) (w : World) : Option (List OrderStatus) :=
  (w.sys.db.orders.find? id).map fun o => o.statusLogs.map OrderStatusLog.newStatus

theorem status_log_tells_history_sample :
    ∃ w, deliveryEvents.foldlM (World.execIf (fun _ _ => true) noFirstOrder)
        (World.init (noOrders ⟨sampleDb, []⟩)) = some w ∧
      loggedStatuses 10000 w = some [.new, .assigned, .inTransit] ∧
      ∀ id o, w.sys.db.orders.find? id = some o → TellsHistory o := by
  have heval : (deliveryEvents.foldlM (World.execIf (fun _ _ => true) noFirstOrder)
      (World.init (noOrders ⟨sampleDb, []⟩))).map (loggedStatuses 10000) =
        some (some [.new, .assigned, .inTransit]) := by decide +kernel
  cases hrun : deliveryEvents.foldlM (World.execIf (fun _ _ => true) noFirstOrder)
      (World.init (noOrders ⟨sampleDb, []⟩)) with
  | none => exact absurd (hrun ▸ heval) (by simp)
  | some w =>
    rw [hrun, Option.map_some, Option.some.injEq] at heval
    exact ⟨w, rfl, heval, status_log_tells_history ⟨sampleDb, []⟩ (Reachable.of_events _ hrun)⟩

/-- A client is onboarded with a first order of coffee. -/
def firstOrderEvents : List Event :=
  [.client ⟨0, fun i j => 500 + 10 * i + j⟩
    (.onboardClientWithBalance (newcomer (some ⟨[(23, 1)], .cash⟩)) 9)]

theorem first_order_without_log :
    ¬ ∀ (r : Registry) (w : World),
      Reachable (fun _ _ => true) (fun _ => true) (World.init (noOrders r)) w →
      ∀ id o, w.sys.db.orders.find? id = some o → TellsHistory o := by
  intro hclaim
  have heval : (firstOrderEvents.foldlM (World.execIf (fun _ _ => true) fun _ => true)
      (World.init (noOrders ⟨sampleDb, []⟩))).map (loggedStatuses 520) = some (some []) := by
    decide +kernel
  cases hrun : firstOrderEvents.foldlM (World.execIf (fun _ _ => true) fun _ => true)
      (World.init (noOrders ⟨sampleDb, []⟩)) with
  | none => exact absurd (hrun ▸ heval) (by simp)
  | some w =>
    rw [hrun, Option.map_some, Option.some.injEq] at heval
    obtain ⟨o, ho, hlogs⟩ := Option.map_eq_some_iff.mp heval
    have hcreated := (hclaim _ w (Reachable.of_events _ hrun) 520 o ho).created
    rw [List.map_eq_nil_iff.mp hlogs] at hcreated
    cases hcreated

end Munavvar.StatusLog
