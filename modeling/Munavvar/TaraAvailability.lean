import Munavvar.ContainerShortage

/-!
# The preview of the container check

Before placing an order a client may ask whether the containers suffice. The
preview compares the lines with the inventory alone, the order also counts the
containers that are bought in the same cart.
-/

namespace Munavvar.TaraAvailability

open Munavvar.KeyedTable
open Munavvar.Transaction
open Munavvar.Transaction.Prog
open Munavvar.Database
open Munavvar.Statements
open Munavvar.StockLedger
open Munavvar.OrderQueries
open Munavvar.OrderService
open Munavvar.Capitalization (cartProducts)
open Munavvar.ShortageCheck
open Munavvar.ContainerShortage

/-! ## The preview -/

/-- A cart and the address it is to be delivered to. -/
structure TaraCheckRequest where
  /-- The cart. -/
  items : List Item
  /-- The address. -/
  clientInventoryId : Uuid

/-- `shortages` of the preview: what is bought in the same cart is not counted. -/
def previewShortages (balance : Uuid → ℤ) (exchange : List ExchangeItem) : List TaraShortage :=
  exchange.filterMap fun x =>
    if balance x.requiredTareId < x.quantity then
      some ⟨x.productId, x.productName, x.requiredTareId, x.quantity, balance x.requiredTareId,
        x.quantity - balance x.requiredTareId⟩
    else none

/-- `check_tara_availability`: `can_order` and the shortages. -/
def checkTaraAvailability (dto : TaraCheckRequest) (clientId : Option Uuid) :
    Uow (Bool × List TaraShortage) := do
  let products ← getByIds (dto.items.map Item.productId)
  let exchange := exchangeItems products fun id => dto.items.find? fun i => i.productId = id
  if exchange.isEmpty then ret (true, [])
  else do
    let inventory ← getInventoryWithBalances dto.clientInventoryId none false
    let (inventory, balances) ← orRaise inventory (.clientInventoryNotFound dto.clientInventoryId)
    raiseIf (clientId.any fun c => inventory.userId ≠ some c)
      (.accessForbidden "У вас нет доступа к данному складу клиента" "INVENTORY_ACCESS_DENIED"
        [("client_inventory_id", .id dto.clientInventoryId)])
    let shortages := previewShortages balances exchange
    ret (shortages.isEmpty, shortages)

/-! ## Two lists of shortages -/

section Lists

variable {b : Uuid → ℤ} {items : List Item} {exchange : List ExchangeItem}

theorem previewShortages_eq_nil :
    previewShortages b exchange = [] ↔ ∀ x ∈ exchange, x.quantity ≤ b x.requiredTareId := by
  rw [previewShortages, List.filterMap_eq_nil_iff]
  constructor
  · intro h x hx
    have hnone := h x hx
    by_contra hshort
    rw [if_pos (not_le.mp hshort)] at hnone
    cases hnone
  · intro h x hx
    exact if_neg (not_lt.mpr (h x hx))

/-- A cart buys no negative number of containers. -/
theorem orderingNow_nonneg (items : List Item) (tare : Uuid) : 0 ≤ orderingNow items tare := by
  rw [orderingNow]
  cases items.reverse.find? fun i => i.productId = tare with
  | none => exact le_refl 0
  | some i => exact i.quantity_pos.le

/-- The order finds the shortages of the preview exactly if no line that lacks
containers in the inventory finds any in the cart. -/
theorem shortages_eq_iff (hnodup : (exchange.map ExchangeItem.productId).Nodup) :
    taraShortages b items exchange = previewShortages b exchange ↔
      ∀ x ∈ exchange, x.quantity ≤ b x.requiredTareId ∨ orderingNow items x.requiredTareId = 0 := by
  constructor
  · intro hsame x hx
    by_contra hnot
    rw [not_or, not_le] at hnot
    have hpreview : (⟨x.productId, x.productName, x.requiredTareId, x.quantity, b x.requiredTareId,
        x.quantity - b x.requiredTareId⟩ : TaraShortage) ∈ previewShortages b exchange :=
      List.mem_filterMap.mpr ⟨x, hx, if_pos hnot.1⟩
    rw [← hsame] at hpreview
    -- the entry of the order for the same product counts the cart
    obtain ⟨y, hy, hentry⟩ := List.mem_filterMap.mp hpreview
    dsimp only at hentry
    split at hentry
    · have hentry := Option.some.inj hentry
      have hproduct : y.productId = x.productId := congrArg TaraShortage.productId hentry
      have hxy := List.inj_on_of_nodup_map hnodup hy hx hproduct
      subst hxy
      have havailable : b y.requiredTareId + orderingNow items y.requiredTareId = b y.requiredTareId :=
        congrArg TaraShortage.available hentry
      exact hnot.2 (by omega)
    · cases hentry
  · intro hall
    refine List.filterMap_congr fun x hx => ?_
    dsimp only
    have hnonneg := orderingNow_nonneg items x.requiredTareId
    rcases hall x hx with henough | hzero
    · rw [if_neg (by omega), if_neg (by omega)]
    · rw [hzero, add_zero]

end Lists

/-! ## The preview and the order -/

section Agreement

variable {s : Db} {env : Env} {clientId : Uuid} {caller : Option Uuid}

/-- An active inventory of a client that the caller may ask about. -/
def OwnedAt (s : Db) (caller : Option Uuid) (inventoryId : Uuid) : Prop :=
  ∃ i, s.directory.inventory? inventoryId = some i ∧ i.isActive = true ∧
    caller.all fun c => i.userId = some c

/-- The preview of a cart. -/
theorem checkTaraAvailability_run {dto : TaraCheckRequest}
    (howned : OwnedAt s caller dto.clientInventoryId) {exchange : List ExchangeItem}
    (hexchange : exchange = exchangeItems (cartProducts s dto.items) fun id =>
      dto.items.find? fun i => i.productId = id) :
    (checkTaraAvailability dto caller).run s = .ok
      (((previewShortages (stockOf s dto.clientInventoryId) exchange).isEmpty,
        previewShortages (stockOf s dto.clientInventoryId) exchange), s) := by
  subst hexchange
  have hexact : Regime.Exact (S := schema) Regime.serial :=
    Regime.serialAsserting_exact (S := schema) _
  let exchange := exchangeItems (cartProducts s dto.items) fun id =>
    dto.items.find? fun i => i.productId = id
  let shortages := previewShortages (stockOf s dto.clientInventoryId) exchange
  have hwp : wp Regime.serial (checkTaraAvailability dto caller)
      (fun x s' => x = (shortages.isEmpty, shortages) ∧ s' = s) (fun _ => False) s := by
    rw [checkTaraAvailability, getByIds, wp_bind]
    refine wp_ask_exact hexact ?_
    change wp (S := schema) Regime.serial (if exchange.isEmpty then _ else _) _ _ s
    split
    · next hempty =>
      have hnone : shortages = [] := by
        simp only [shortages, List.isEmpty_iff.mp hempty]
        rfl
      rw [wp_ret, hnone]
      exact ⟨rfl, rfl⟩
    · obtain ⟨i, hi, hactive, hcaller⟩ := howned
      rw [wp_bind]
      refine wp_getInventoryWithBalances hexact _ _ ?_
      rw [wp_bind, wp_orRaise]
      refine ⟨fun hmissing => ?_, fun x hx => ?_⟩
      · rw [hi] at hmissing
        simp [hactive] at hmissing
      · obtain ⟨j, hj, rfl⟩ := Option.map_eq_some_iff.mp hx
        have hsame : j = i := by
          rw [hi] at hj
          exact (Option.some.inj (Option.filter_eq_some_iff.mp hj).1).symm
        subst hsame
        rw [wp_bind, wp_raiseIf]
        refine ⟨fun hforeign => ?_, fun _ => ⟨rfl, rfl⟩⟩
        cases caller with
        | none => exact absurd hforeign (by simp)
        | some c =>
          rw [Option.all_some, decide_eq_true_eq] at hcaller
          simp [hcaller] at hforeign
  rw [wp_serial_iff] at hwp
  cases hrun : (checkTaraAvailability dto caller).run s with
  | ok x =>
    rw [hrun] at hwp
    obtain ⟨hx, hs⟩ := hwp
    exact congrArg Except.ok (Prod.ext hx hs)
  | error e =>
    rw [hrun] at hwp
    exact hwp.elim

/-- What follows the check of an order does not fail of it. -/
theorem afterOrder_apart (env : Env) (clientId : Uuid) (dto : OrderCreate)
    (x : List (Uuid × Product) × Option (Uuid × List (Uuid × PriceItem))) (capitalized : Bool) :
    Apart (fun _ _ => True) (afterOrder env clientId dto x capitalized) := by
  refine within_bind ?_ fun _ => (within_execute _ _).mpr trivial
  refine within_bind ((within_execute _ _).mpr trivial) fun _ => ?_
  refine within_bind (within_ask _) fun d => ?_
  refine within_bind ((within_raiseIf _ _).mpr fun _ _ => nofun) fun _ => ?_
  exact (within_execute _ _).mpr trivial

/-- The database refuses rows with exceptions of its own. -/
theorem exec_notTara (k : Key) (st : Stmt k) (old : Option (Row k)) {e : Err}
    (h : exec k st old = .error e) : NotTara e := by
  rintro shortages rfl
  have hconstraint := exec_isConstraint k st old h
  cases hconstraint

/-- A part that is apart from the check does not raise its exception. -/
theorem Apart.not_tara {P : (k : Key) → Stmt k → Prop} {α : Type} {p : Uow α} (hp : Apart P p)
    {e : Err} (hrun : p.run s = .error e) : NotTara e := by
  have hwp : wp Regime.serial p (fun _ _ => True) NotTara s :=
    wp_frame hp (fun _ _ _ _ => Regime.serial_lax _ _ _) (fun _ he => he)
      (fun k st old e _ he => exec_notTara k st old he) fun _ _ _ => trivial
  rw [wp_serial_iff, hrun] at hwp
  exact hwp

/-- An order that stops before its check. -/
theorem createOrder_stopped {dto : OrderCreate}
    (hstopped : ¬ ∃ x, (beforeOrder env clientId dto).run s = .ok x) (shortages : List TaraShortage) :
    (createOrder env clientId dto).run s ≠ .error (.insufficientTara shortages) := by
  intro hrun
  cases hbefore : (beforeOrder env clientId dto).run s with
  | ok x => exact hstopped ⟨x, hbefore⟩
  | error e =>
    have hother : NotTara e := 
      Apart.not_tara (beforeOrder_apart env clientId dto) hbefore
    have hwp : wp Regime.serial (createOrder env clientId dto) (fun _ _ => True) NotTara s := by
      rw [createOrder_parts, wp_bind, wp_serial_iff, hbefore]
      exact hother
    rw [wp_serial_iff, hrun] at hwp
    exact hwp shortages rfl

/-- An order that reaches its check fails of it exactly if a line lacks containers. -/
theorem createOrder_reaching {dto : OrderCreate} (hflag : dto.capitalizeMissingTara = false)
    (hfound : OwnedAt s caller dto.clientInventoryId)
    (hreached : ∃ x, (beforeOrder env clientId dto).run s = .ok x) (shortages : List TaraShortage) :
    (createOrder env clientId dto).run s = .error (.insufficientTara shortages) ↔
      shortages ≠ [] ∧ shortages = taraShortages (stockOf s dto.clientInventoryId) dto.items
        (orderExchange dto (cartProducts s dto.items)) := by
  obtain ⟨⟨x, s₁⟩, hbefore⟩ := hreached
  obtain ⟨hproducts, -⟩ := beforeOrder_result hbefore
  obtain ⟨t, rfl⟩ := beforeOrder_frame hbefore
  obtain ⟨i, hi, hactive, -⟩ := hfound
  have hexact : Regime.Exact (S := schema) Regime.serial :=
    Regime.serialAsserting_exact (S := schema) _
  generalize hmissing : taraShortages (stockOf s dto.clientInventoryId) dto.items
    (orderExchange dto (cartProducts s dto.items)) = missing
  have hcheck : taraShortages (stockOf { s with priceItems := t } dto.clientInventoryId) dto.items
      (orderExchange dto x.1) = missing := by
    rw [hproducts]
    exact hmissing
  have hwp : wp Regime.serial (createOrder env clientId dto) (fun _ _ => missing = [])
      (fun e => missing ≠ [] ∧ e = .insufficientTara missing ∨ missing = [] ∧ NotTara e) s := by
    rw [createOrder_parts, wp_bind, wp_serial_iff, hbefore]
    dsimp only
    rw [wp_bind]
    refine wp_exchangeTara (s := { s with priceItems := t }) hexact Regime.serial_lax ⟨i, hi, hactive⟩ (fun _ hshort => ?_) (.inl hflag)
      (fun hnone => ?_) fun h => absurd (h.symm.trans hflag) (by decide)
    · rw [hcheck] at hshort ⊢
      exact .inl ⟨hshort, rfl⟩
    · rw [hcheck] at hnone
      exact wp_frame (afterOrder_apart env clientId dto x false) (fun _ _ _ _ => Regime.serial_lax _ _ _)
        (fun _ he => .inr ⟨hnone, he⟩) (fun k st old e _ he => .inr ⟨hnone, exec_notTara k st old he⟩)
        fun _ _ _ => hnone
  rw [wp_serial_iff] at hwp
  cases hrun : (createOrder env clientId dto).run s with
  | ok y =>
    rw [hrun] at hwp
    have hwp : missing = [] := hwp
    refine iff_of_false nofun fun ⟨hne, hsame⟩ => hne (hsame.trans hwp)
  | error e =>
    rw [hrun] at hwp
    rcases hwp with ⟨hne, rfl⟩ | ⟨hnone, hother⟩
    · constructor
      · intro h
        cases h
        exact ⟨hne, rfl⟩
      · rintro ⟨-, rfl⟩
        rfl
    · refine iff_of_false (fun h => ?_) fun ⟨hne, hsame⟩ => hne (hsame.trans hnone)
      exact hother shortages (Except.error.inj h)

/-! ## When they agree -/

/-- The preview of a cart tells whether the order, placed without capitalisation,
fails of its container check, and with which shortages. -/
def PreviewAgrees (env : Env) (clientId : Uuid) (caller : Option Uuid) (dto : OrderCreate) (s : Db) :
    Prop :=
  ∃ canOrder shortages,
    (checkTaraAvailability ⟨dto.items, dto.clientInventoryId⟩ caller).run s =
      .ok ((canOrder, shortages), s) ∧
    (canOrder = true ↔ ∀ missing, (createOrder env clientId
      { dto with capitalizeMissingTara := false }).run s ≠ .error (.insufficientTara missing)) ∧
    ∀ missing, (createOrder env clientId { dto with capitalizeMissingTara := false }).run s =
      .error (.insufficientTara missing) → missing = shortages

/-- A line of a product on sale asks for a container. -/
def Asks (s : Db) (items : List Item) (i : Item) (tare : Uuid) : Prop :=
  i ∈ items ∧ ∃ p, s.products.find? i.productId = some p ∧ p.isActive = true ∧
    p.returnableItemId = some tare

/-- Nothing stops an order before its container check. -/
def ReachesCheck (env : Env) (clientId : Uuid) (dto : OrderCreate) (s : Db) : Prop :=
  ∃ x, (beforeOrder env clientId dto).run s = .ok x

/-- The lines that ask for containers are the entries of the check. -/
theorem forall_exchange_iff {dto : OrderCreate} (hnodup : (dto.items.map Item.productId).Nodup)
    {C : ℤ → Uuid → Prop} :
    (∀ x ∈ orderExchange dto (cartProducts s dto.items), C x.quantity x.requiredTareId) ↔
      ∀ i tare, Asks s dto.items i tare → C i.quantity tare := by
  constructor
  · rintro hall i tare ⟨hi, p, hp, hactive, htare⟩
    have hmem : (⟨i.productId, p.name, tare, i.quantity⟩ : ExchangeItem) ∈
        orderExchange dto (cartProducts s dto.items) := by
      refine List.mem_filterMap.mpr ⟨(i.productId, p),
        (mem_cartProducts _).mpr ⟨hp, List.mem_map.mpr ⟨i, hi, rfl⟩, hactive⟩, ?_⟩
      dsimp only
      rw [htare, Option.bind_some, find_reverse hnodup, find_line hnodup hi]
      rfl
    exact hall _ hmem
  · intro hall x hx
    obtain ⟨p, hp, hx⟩ := List.mem_filterMap.mp hx
    obtain ⟨tare, htare, hx⟩ := Option.bind_eq_some_iff.mp hx
    obtain ⟨i, hi, rfl⟩ := Option.map_eq_some_iff.mp hx
    obtain ⟨hfind, -, hactive⟩ := (mem_cartProducts p).mp hp
    dsimp only at hi
    rw [find_reverse hnodup] at hi
    have hproduct : i.productId = p.1 := by simpa using List.find?_some hi
    exact hall i tare ⟨List.mem_of_find?_eq_some hi, p.2, hproduct ▸ hfind, hactive, htare⟩

/-- The preview agrees with the order exactly if every line that lacks containers
in the inventory asks for one that the cart does not buy, and reaches the check. -/
theorem preview_agrees_iff {dto : OrderCreate} (hnodup : (dto.items.map Item.productId).Nodup)
    (howned : OwnedAt s caller dto.clientInventoryId) :
    PreviewAgrees env clientId caller dto s ↔ ∀ i tare, Asks s dto.items i tare →
      i.quantity ≤ stockOf s dto.clientInventoryId tare ∨
        ReachesCheck env clientId dto s ∧ bought dto.items tare = 0 := by
  have hexchange : orderExchange dto (cartProducts s dto.items) =
      exchangeItems (cartProducts s dto.items) fun id =>
        dto.items.find? fun i => i.productId = id := by
    simp only [orderExchange, find_reverse hnodup]
  let request : TaraCheckRequest := ⟨dto.items, dto.clientInventoryId⟩
  have howned' : OwnedAt s caller request.clientInventoryId := howned
  have hpreview := checkTaraAvailability_run howned' hexchange
  have hkeys : ((orderExchange dto (cartProducts s dto.items)).map ExchangeItem.productId).Nodup := by
    refine keys_nodup (fun p x hx => ?_) cartProducts_nodup
    obtain ⟨tare, -, hx⟩ := Option.bind_eq_some_iff.mp hx
    obtain ⟨i, -, rfl⟩ := Option.map_eq_some_iff.mp hx
    rfl
  have hbought : ∀ tare, bought dto.items tare = orderingNow dto.items tare :=
    bought_eq_orderingNow hnodup
  have henough := forall_exchange_iff (s := s) hnodup
    (C := fun q tare => q ≤ stockOf s dto.clientInventoryId tare)
  have hlists := forall_exchange_iff (s := s) hnodup
    (C := fun q tare => q ≤ stockOf s dto.clientInventoryId tare ∨ orderingNow dto.items tare = 0)
  rw [← shortages_eq_iff hkeys] at hlists
  rw [← previewShortages_eq_nil] at henough
  generalize hP : previewShortages (stockOf s dto.clientInventoryId)
    (orderExchange dto (cartProducts s dto.items)) = preview at *
  have hagrees : PreviewAgrees env clientId caller dto s ↔
      (preview.isEmpty = true ↔ ∀ missing, (createOrder env clientId
        { dto with capitalizeMissingTara := false }).run s ≠ .error (.insufficientTara missing)) ∧
      ∀ missing, (createOrder env clientId { dto with capitalizeMissingTara := false }).run s =
        .error (.insufficientTara missing) → missing = preview := by
    constructor
    · rintro ⟨canOrder, shortages, hrun, h⟩
      cases hpreview.symm.trans hrun
      exact h
    · exact fun h => ⟨_, _, hpreview, h⟩
  rw [hagrees, List.isEmpty_iff]
  by_cases hreached : ReachesCheck env clientId dto s
  · simp only [hreached, true_and, hbought]
    rw [← hlists]
    generalize hO : taraShortages (stockOf s dto.clientInventoryId) dto.items
      (orderExchange dto (cartProducts s dto.items)) = order at *
    have hfails : ∀ missing, (createOrder env clientId { dto with capitalizeMissingTara := false }).run
        s = .error (.insufficientTara missing) ↔ missing ≠ [] ∧ missing = order := by
      rw [← hO]
      exact createOrder_reaching rfl howned hreached
    simp only [hfails, ne_eq]
    constructor
    · rintro ⟨hcan, hsame⟩
      by_cases hnone : order = []
      · rw [hnone]
        refine (hcan.mpr fun missing h => ?_).symm
        exact h.1 (h.2.trans hnone)
      · exact hsame order ⟨hnone, rfl⟩
    · rintro rfl
      constructor
      · constructor
        · exact fun hnone missing h => h.1 (h.2.trans hnone)
        · intro h
          by_contra hsome
          exact h order ⟨hsome, rfl⟩
      · exact fun missing h => h.2
  · simp only [hreached, false_and, or_false]
    rw [← henough]
    have hnever : ∀ missing, (createOrder env clientId
        { dto with capitalizeMissingTara := false }).run s ≠ .error (.insufficientTara missing) :=
      createOrder_stopped hreached
    constructor
    · exact fun h => h.1.mpr hnever
    · exact fun h => ⟨iff_of_true h hnever, fun missing hrun => absurd hrun (hnever missing)⟩

end Agreement

theorem shared_owned : OwnedAt shared (some 7) 5 :=
  ⟨⟨5, some 7, .client, true, "office"⟩, rfl, rfl, rfl⟩

/-- Three waters for two bottles. -/
theorem preview_agrees_iff_sample :
    PreviewAgrees sampleEnv 7 (some 7) (cartOf [⟨21, 3, by decide⟩]) shared := by
  obtain ⟨x, s₁, hrun⟩ := reached
    (p := beforeOrder sampleEnv 7 (cartOf [⟨21, 3, by decide⟩])) (s := shared) (by decide +kernel)
  refine (preview_agrees_iff (by decide) shared_owned).mpr fun i tare hasks => .inr ⟨⟨_, hrun⟩, ?_⟩
  obtain ⟨hi, p, hp, hactive, htare⟩ := hasks
  have hline : i = ⟨21, 3, by decide⟩ := List.mem_singleton.mp hi
  subst hline
  have hwater : p = ⟨.water, "water", 100, some 22, true⟩ := (Option.some.inj hp).symm
  subst hwater
  cases htare
  decide

/-- The bottles that are bought with the waters are not in the preview. -/
theorem preview_too_strict : ¬ ∀ (env : Env) (clientId : Uuid) (caller : Option Uuid)
    (dto : OrderCreate) (s : Db), (dto.items.map Item.productId).Nodup →
    OwnedAt s caller dto.clientInventoryId → PreviewAgrees env clientId caller dto s := by
  intro hclaim
  obtain ⟨canOrder, shortages, hpreview, hagrees, -⟩ := hclaim sampleEnv 7 (some 7)
    (cartOf [⟨21, 3, by decide⟩, ⟨22, 3, by decide⟩]) shared (by decide) shared_owned
  have hrefused : (match (checkTaraAvailability
        ⟨[⟨21, 3, by decide⟩, ⟨22, 3, by decide⟩], 5⟩ (some 7)).run shared with
      | .ok x => some x.1.1
      | .error _ => none) = some false := by decide +kernel
  obtain ⟨x, s', hplaced⟩ := reached (p := createOrder sampleEnv 7
    (cartOf [⟨21, 3, by decide⟩, ⟨22, 3, by decide⟩])) (s := shared) (by decide +kernel)
  have hpreview : (checkTaraAvailability ⟨[⟨21, 3, by decide⟩, ⟨22, 3, by decide⟩], 5⟩ (some 7)).run
      shared = .ok ((canOrder, shortages), shared) := hpreview
  rw [hpreview] at hrefused
  have hcan : canOrder = false := Option.some.inj hrefused
  have hnever := hagrees.mpr fun missing hfails => by
    cases hplaced.symm.trans hfails
  rw [hcan] at hnever
  cases hnever

end Munavvar.TaraAvailability
