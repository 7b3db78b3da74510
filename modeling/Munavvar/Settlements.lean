import Munavvar.OrderEffects

/-!
# Settlements

What entering financial transactions does to the accounts when it happens
alone. Every completed row moves its amount, a pending one waits, and nothing
but the constraints of the rows, their accounts and the range of the balances
can stop them. A settlement enters the debt and the payment, so the amount ends
up on the account that owes it.
-/

namespace Munavvar.Settlements

open Munavvar.KeyedTable
open Munavvar.Transaction
open Munavvar.Transaction.Prog
open Munavvar.Database
open Munavvar.DoubleEntry
open Munavvar.Statements
open Munavvar.StockLedger
open Munavvar.FinancialLedger
open Munavvar.OrderQueries
open Munavvar.Fulfillment
open Munavvar.OrderChanges
open Munavvar.OrderEffects

/-! ## Rows -/

/-- What some rows move on an account. -/
def effectOf (rows : List FinancialTransaction) (a : Uuid) : ℤ :=
  (rows.map fun x => rowEffect entryOf (some x) a).sum

@[simp] theorem effectOf_nil (a : Uuid) : effectOf [] a = 0 := rfl

@[simp] theorem effectOf_cons (x : FinancialTransaction) (rows : List FinancialTransaction) (a : Uuid) :
    effectOf (x :: rows) a = rowEffect entryOf (some x) a + effectOf rows a := rfl

theorem effectOf_append (rows rows' : List FinancialTransaction) (a : Uuid) :
    effectOf (rows ++ rows') a = effectOf rows a + effectOf rows' a := by
  rw [effectOf, List.map_append, List.sum_append, effectOf, effectOf]

/-- The balances have room for one row after another. -/
def HaveRoom : List FinancialTransaction → (Uuid → ℤ) → Prop
  | [], _ => True
  | x :: rows, b =>
    (x.status = .completed →
      int64 (b x.fromId - x.amount) = true ∧ int64 (b x.toId + x.amount) = true) ∧
    HaveRoom rows fun a => b a + rowEffect entryOf (some x) a

theorem haveRoom_append (rows rows' : List FinancialTransaction) (b : Uuid → ℤ) :
    HaveRoom (rows ++ rows') b ↔ HaveRoom rows b ∧ HaveRoom rows' fun a => b a + effectOf rows a := by
  induction rows generalizing b with
  | nil => simp [HaveRoom]
  | cons x rows ih =>
    rw [List.cons_append, HaveRoom, HaveRoom, ih, and_assoc]
    simp only [effectOf_cons, add_assoc]

/-- The balance is a column of the account. -/
def AccountsHeld (s : Db) : Prop :=
  ∀ id, (s.directory.account? id).isSome = true → (s.accountBalances.find? id).isSome = true

/-- Nothing stops rows from being entered. -/
structure Enterable (rows : List (Uuid × FinancialTransaction)) (s : Db) : Prop where
  /-- The identifiers are not in use. -/
  new : ∀ r ∈ rows, s.transactions.find? r.1 = none
  /-- Neither are they used twice. -/
  distinct : (rows.map Prod.fst).Nodup
  /-- The rows pass their checks. -/
  checks : ∀ r ∈ rows, ∀ c ∈ r.2.constraints, c.1 = true
  /-- The accounts exist. -/
  accounts : ∀ r ∈ rows, (s.directory.account? r.2.fromId).isSome = true ∧
    (s.directory.account? r.2.toId).isSome = true
  /-- The order exists. -/
  orders : ∀ r ∈ rows, (r.2.orderId.all fun id => (s.orders.find? id).isSome) = true
  /-- The balances have room. -/
  room : HaveRoom (rows.map Prod.snd) (balance s.accountBalances)

/-- Nothing that stops rows has changed with the orders. -/
theorem Enterable.of_same {rows : List (Uuid × FinancialTransaction)} {s s' : Db}
    (h : Enterable rows s) (hdirectory : s'.directory = s.directory)
    (htransactions : s'.transactions = s.transactions)
    (hbalances : s'.accountBalances = s.accountBalances)
    (horders : ∀ id, (s.orders.find? id).isSome = true → (s'.orders.find? id).isSome = true) :
    Enterable rows s' := by
  refine ⟨?_, h.distinct, h.checks, ?_, fun r hr => ?_, ?_⟩
  · rw [htransactions]
    exact h.new
  · rw [hdirectory]
    exact h.accounts
  · have horder := h.orders r hr
    cases hid : r.2.orderId with
    | none => rfl
    | some id =>
      rw [hid] at horder
      exact horders id horder
  · rw [hbalances]
    exact h.room

/-- The ledger and the accounts after rows have been entered. -/
structure Entered (rows : List FinancialTransaction) (t t' : Table Uuid FinancialTransaction)
    (b b' : Table Uuid ℤ) : Prop where
  /-- The ledger ends with the rows. -/
  appended : Appended t t' rows
  /-- Every completed row has moved its amount. -/
  balance_eq : ∀ a, balance b' a = balance b a + effectOf rows a
  /-- The rows passed their checks. -/
  checks : ∀ x ∈ rows, ∀ c ∈ x.constraints, c.1 = true
  /-- The balances had room. -/
  room : HaveRoom rows (balance b)

section Rules

variable {R : Regime schema} {E : Err → Prop} {s : Db}

/-- The rows of one `INSERT` are stored before the first trigger fires. -/
theorem wp_storeTransactions (hlax : R.Lax) {rows : List (Uuid × FinancialTransaction)}
    (hsure : Sure E (Enterable rows s)) {Q : Unit → Db → Prop}
    (hQ : ∀ t, Appended s.transactions t (rows.map Prod.snd) →
      (∀ r ∈ rows, ∀ c ∈ r.2.constraints, c.1 = true) → Q () { s with transactions := t }) :
    wp R (forEach rows fun r => issue (.transaction r.1) (.insert r.2)) Q E s := by
  refine wp_loop (fun done s' => ∃ t, s' = { s with transactions := t } ∧
      Appended s.transactions t (done.map Prod.snd) ∧
      (∀ id, id ∉ done.map Prod.fst → t.find? id = s.transactions.find? id) ∧
      ∀ r ∈ done, ∀ c ∈ r.2.constraints, c.1 = true)
    ⟨_, rfl, appended_nil _, fun _ _ => rfl, fun r hr => absurd hr List.not_mem_nil⟩ ?_ ?_
  · rintro done r todo _ hdone ⟨t, rfl, happended, hkept, hchecks⟩
    have hr : r ∈ rows := hdone ▸ List.mem_append_right _ List.mem_cons_self
    cases hid : t.find? r.1 with
    | some old =>
      refine wp_execute_of (hlax _ _ _) (fun _ row hrow => ?_) fun e _ => hsure.err (fun hok => ?_) e
      · change (FinancialStmt.insert r.2).exec (t.find? r.1) = .ok row at hrow
        rw [hid] at hrow
        cases hrow
      · have hdistinct := hok.distinct
        rw [← hdone, List.map_append, List.map_cons, List.nodup_middle, List.nodup_cons] at hdistinct
        have hfresh : r.1 ∉ done.map Prod.fst := fun h => hdistinct.1 (List.mem_append_left _ h)
        rw [hkept r.1 hfresh, hok.new r hr] at hid
        cases hid
    | none =>
      refine wp_checked (k := .transaction r.1) (v := r.2) hlax ?_
        (hsure.imp fun hok => hok.checks r hr) fun hpasses => ?_
      · change (FinancialStmt.insert r.2).exec (t.find? r.1) = _
        rw [hid]
        rfl
      · refine ⟨_, rfl, ?_, fun id hnot => ?_, fun x hx => ?_⟩
        · rw [List.map_append]
          exact appended_put happended hid r.2
        · rw [List.map_append, List.mem_append, not_or, List.map_singleton,
            List.mem_singleton] at hnot
          exact (Table.find?_put_ne t hnot.2 _).trans (hkept id hnot.1)
        · rcases List.mem_append.mp hx with hx | hx
          · exact hchecks x hx
          · rw [List.mem_singleton.mp hx]
            exact hpasses
  · rintro _ ⟨t, rfl, happended, -, hchecks⟩
    exact hQ t happended hchecks

/-- The trigger of one row that refers to existing rows. -/
theorem wp_postTransaction (hexact : R.Exact) (hlax : R.Lax) {x : FinancialTransaction}
    (hheld : AccountsHeld s)
    (hsure : Sure E (((s.directory.account? x.fromId).isSome = true ∧
        (s.directory.account? x.toId).isSome = true) ∧
      (x.orderId.all fun id => (s.orders.find? id).isSome) = true ∧
      (x.status = .completed → int64 (balance s.accountBalances x.fromId - x.amount) = true ∧
        int64 (balance s.accountBalances x.toId + x.amount) = true)))
    (hpos : 0 < x.amount) (hroute : x.fromId ≠ x.toId) {Q : Unit → Db → Prop}
    (hQ : ∀ b, (∀ a, balance b a = balance s.accountBalances a + rowEffect entryOf (some x) a) →
      (∀ a, (b.find? a).isSome = (s.accountBalances.find? a).isSome) →
      (x.status = .completed → int64 (balance s.accountBalances x.fromId - x.amount) = true ∧
        int64 (balance s.accountBalances x.toId + x.amount) = true) →
      Q () { s with accountBalances := b }) :
    wp R (do checkReferences x; updateAccountBalances none x) Q E s := by
  rw [wp_bind, checkReferences]
  simp only [wp_bind, wp_ask, wp_raiseIf]
  intro v hv v' hv'
  obtain rfl := hexact _ _ hv
  obtain rfl := hexact _ _ hv'
  refine ⟨fun hnone => hsure.err (fun hok => ?_) _, fun hfrom => ?_⟩
  · exact absurd hok.1.1 (by simpa using hnone)
  refine ⟨fun hnone => hsure.err (fun hok => ?_) _, fun hto => ?_⟩
  · exact absurd hok.1.2 (by simpa using hnone)
  refine ⟨fun hnone => hsure.err (fun hok => ?_) _, fun _ => ?_⟩
  · exact absurd (hok.2.1.symm.trans hnone) (by simp)
  have hfrom := hheld x.fromId (by rwa [Bool.not_eq_true, Option.isNone_eq_false_iff] at hfrom)
  have hto := hheld x.toId (by rwa [Bool.not_eq_true, Option.isNone_eq_false_iff] at hto)
  have hdiff : x.status = .completed → (balanceDiff none x).2 = x.amount := by
    intro hstatus
    rw [balanceDiff, if_pos hstatus]
  have hmovable : x.status = .completed →
      (Movable v'.accountBalances ⟨x.fromId, x.toId, (balanceDiff none x).2⟩ ↔
        int64 (balance v'.accountBalances x.fromId - x.amount) = true ∧
          int64 (balance v'.accountBalances x.toId + x.amount) = true) := by
    intro hstatus
    rw [movable_iff (by exact hroute), hdiff hstatus]
  have hcompleted : (balanceDiff none x).2 ≠ 0 → x.status = .completed := by
    intro hne
    by_contra hstatus
    refine hne ?_
    rw [balanceDiff, if_neg hstatus]
  refine updateAccountBalances_spec hlax (fun _ => ⟨hfrom, hto⟩) (fun hne hnot => ?_)
    (fun hedited => hedited.elim fun _ h => absurd h.1 (by simp)) ?_
  · refine hsure.err (fun hok => ?_) _
    exact hnot ((hmovable (hcompleted hne)).mpr (hok.2.2 (hcompleted hne)))
  · intro _ b hbalance _ hexists hroom
    refine hQ b (fun a => ?_) hexists fun hstatus => ?_
    · rw [hbalance, rowEffect_none, sub_zero]
    · refine (hmovable hstatus).mp (hroom ?_)
      rw [hdiff hstatus]
      omega

/-- What the constraints say of a row. -/
theorem pos_of_constraints {x : FinancialTransaction} (h : ∀ c ∈ x.constraints, c.1 = true) :
    0 < x.amount ∧ x.fromId ≠ x.toId := by
  have hamount := h (decide (0 < x.amount), .checkViolation "ck_transaction_amount_pos")
    (by simp [FinancialTransaction.constraints])
  have hroute := h (decide (x.fromId ≠ x.toId), .checkViolation "ck_transaction_no_self_transfer")
    (by simp [FinancialTransaction.constraints])
  exact ⟨of_decide_eq_true hamount, of_decide_eq_true hroute⟩

/-- One `INSERT` of several rows with their triggers. -/
theorem wp_enter (hexact : R.Exact) (hlax : R.Lax) {rows : List (Uuid × FinancialTransaction)}
    (hheld : AccountsHeld s) (hsure : Sure E (Enterable rows s)) {Q : Unit → Db → Prop}
    (hQ : ∀ t b, Entered (rows.map Prod.snd) s.transactions t s.accountBalances b →
      Q () { s with transactions := t, accountBalances := b }) :
    wp R (insertTransactions rows) Q E s := by
  rw [insertTransactions, wp_bind]
  refine wp_storeTransactions hlax hsure fun t happended hchecks => ?_
  refine wp_loop (fun done s' => ∃ b, s' = { s with transactions := t, accountBalances := b } ∧
      (∀ a, balance b a = balance s.accountBalances a + effectOf (done.map Prod.snd) a) ∧
      (∀ a, (b.find? a).isSome = (s.accountBalances.find? a).isSome) ∧
      HaveRoom (done.map Prod.snd) (balance s.accountBalances))
    ⟨_, rfl, fun a => (add_zero _).symm, fun _ => rfl, trivial⟩ ?_ ?_
  · rintro done r todo _ hdone ⟨b, rfl, hb, hexists, hroom⟩
    have hr : r ∈ rows := hdone ▸ List.mem_append_right _ List.mem_cons_self
    have hnow : (fun a => balance s.accountBalances a + effectOf (done.map Prod.snd) a) = balance b :=
      funext fun a => (hb a).symm
    obtain ⟨hpos, hroute⟩ := pos_of_constraints (hchecks r hr)
    refine wp_postTransaction (s := { s with transactions := t, accountBalances := b }) hexact hlax
      (fun id hid => (hexists id).trans (hheld id hid)) (hsure.imp fun hok => ?_) hpos hroute
      fun b' hb' hexists' hfits => ?_
    · refine ⟨hok.accounts r hr, hok.orders r hr, ?_⟩
      have hall := hok.room
      rw [← hdone, List.map_append, haveRoom_append, hnow] at hall
      exact hall.2.1
    · refine ⟨b', rfl, fun a => ?_, fun a => (hexists' a).trans (hexists a), ?_⟩
      · rw [hb', hb, List.map_append, effectOf_append, List.map_singleton, effectOf_cons,
          effectOf_nil, add_zero, add_assoc]
      · rw [List.map_append, haveRoom_append, hnow]
        exact ⟨hroom, hfits, trivial⟩
  · rintro _ ⟨b, rfl, hb, -, hroom⟩
    refine hQ t b ⟨happended, hb, fun x hx => ?_, hroom⟩
    obtain ⟨r, hr, rfl⟩ := List.mem_map.mp hx
    exact hchecks r hr

/-! ## Settlements -/

/-- The rows of a settlement with their identifiers. -/
def settlementRows (env : Env) (rows : List FinancialTransaction) :
    List (Uuid × FinancialTransaction) := rows.zipIdx.map fun x => (env.uuid 9 x.2, x.1)

theorem settlementRows_snd (env : Env) (rows : List FinancialTransaction) :
    (settlementRows env rows).map Prod.snd = rows := by
  rw [settlementRows, List.map_map]
  exact List.zipIdx_map_fst 0 rows

/-- The debt of the client followed by the payment. -/
structure Settling (env : Env) (id : Uuid) (o : Order) (debtReason : String)
    (payment : Directory → Account → Except Err (List FinancialTransaction)) (d : Directory)
    (client revenue : Account) (rows : List FinancialTransaction) : Prop where
  /-- The account that owes. -/
  client_eq : d.clientAccount o.clientId = some client
  /-- The account that earns. -/
  revenue_eq : d.systemRevenueAccount = some revenue
  /-- What is entered. -/
  rows_eq : ∃ payments, payment d client = .ok payments ∧
    rows = settlementTransaction env id o revenue client .completed debtReason :: payments

/-- A settlement that finds its accounts and enters its rows. -/
theorem wp_settled (hexact : R.Exact) (hlax : R.Lax) (env : Env) (id : Uuid) (o : Order)
    (missingClient debtReason : String)
    (payment : Directory → Account → Except Err (List FinancialTransaction)) (hheld : AccountsHeld s)
    (hsure : Sure E (∃ client revenue rows,
      Settling env id o debtReason payment s.directory client revenue rows ∧
        Enterable (settlementRows env rows) s)) {Q : Unit → Db → Prop}
    (hQ : ∀ client revenue rows t b,
      Settling env id o debtReason payment s.directory client revenue rows →
      Entered rows s.transactions t s.accountBalances b →
      Q () { s with transactions := t, accountBalances := b }) :
    wp R (settle env id o missingClient debtReason payment) Q E s := by
  rw [settle, wp_bind]
  refine wp_ask_exact hexact ?_
  simp only [wp_bind, wp_orRaise, wp_fromExcept]
  refine ⟨fun hnone => hsure.err (fun hready => ?_) _, fun client hclient => ?_⟩
  · obtain ⟨client, _, _, h, -⟩ := hready
    exact absurd (hnone.symm.trans h.client_eq) (by simp)
  refine ⟨fun hnone => hsure.err (fun hready => ?_) _, fun revenue hrevenue => ?_⟩
  · obtain ⟨_, revenue, _, h, -⟩ := hready
    exact absurd (hnone.symm.trans h.revenue_eq) (by simp)
  refine ⟨fun e he => hsure.err (fun hready => ?_) e, fun payments hpayments => ?_⟩
  · obtain ⟨client', _, _, h, -⟩ := hready
    obtain ⟨payments, hok, -⟩ := h.rows_eq
    cases hclient.symm.trans h.client_eq
    rw [he] at hok
    cases hok
  · have hrows : Settling env id o debtReason payment s.directory client revenue
        (settlementTransaction env id o revenue client .completed debtReason :: payments) :=
      ⟨hclient, hrevenue, payments, hpayments, rfl⟩
    refine wp_enter hexact hlax hheld (hsure.imp fun hready => ?_) fun t b hentered => ?_
    · obtain ⟨client', revenue', rows, h, henter⟩ := hready
      obtain ⟨payments', hok, rfl⟩ := h.rows_eq
      cases hclient.symm.trans h.client_eq
      cases hrevenue.symm.trans h.revenue_eq
      cases hpayments.symm.trans hok
      exact henter
    · change Entered ((settlementRows env _).map Prod.snd) s.transactions t s.accountBalances b at hentered
      rw [settlementRows_snd] at hentered
      exact hQ client revenue _ t b hrows hentered

end Rules

/-! ## Who ends up with the amount -/

section Amounts

variable {env : Env} {id : Uuid} {o : Order} {reason : String} {d : Directory}
  {client revenue : Account} {rows : List FinancialTransaction}

/-- A completed row moves the total from one account to the other. -/
theorem rowEffect_completed (source target : Account) (reason : String) (a : Uuid) :
    rowEffect entryOf (some (settlementTransaction env id o source target .completed reason)) a =
      (if a = target.id then o.totalAmount else 0) - if a = source.id then o.totalAmount else 0 := rfl

/-- A pending row moves nothing yet. -/
theorem rowEffect_pending (source target : Account) (reason : String) (a : Uuid) :
    rowEffect entryOf (some (settlementTransaction env id o source target .pending reason)) a = 0 :=
  rfl

/-- The account that the amount of a delivery ends up on: the courier's if the
client pays in cash, and the client's own otherwise. -/
def deliveryDebtor (d : Directory) (o : Order) (client : Account) : Option Account :=
  match o.paymentMethod, o.courierId with
  | .cash, some courierId => d.courierAccount courierId
  | _, _ => some client

/-- The account that the amount of a pickup ends up on. -/
def pickupDebtor (d : Directory) (o : Order) (client : Account) : Option Account :=
  match o.paymentMethod with
  | .cash => d.systemCashAccount
  | _ => some client

/-- The revenue gives the total and one account ends up with it. -/
def EndsUp (o : Order) (revenue debtor : Account) (rows : List FinancialTransaction) : Prop :=
  ∀ a, effectOf rows a =
    (if a = debtor.id then o.totalAmount else 0) - if a = revenue.id then o.totalAmount else 0

/-- The debt alone, or with a payment that is still pending, stays with the client. -/
theorem endsUp_debt (client revenue card : Account) (debtReason cardReason : String) :
    EndsUp o revenue client [settlementTransaction env id o revenue client .completed debtReason] ∧
      EndsUp o revenue client [settlementTransaction env id o revenue client .completed debtReason,
        settlementTransaction env id o client card .pending cardReason] := by
  constructor
  · intro a
    rw [effectOf_cons, effectOf_nil, rowEffect_completed, add_zero]
  · intro a
    rw [effectOf_cons, effectOf_cons, effectOf_nil, rowEffect_completed, rowEffect_pending, add_zero,
      add_zero]

/-- A payment in cash passes the debt on. -/
theorem endsUp_paid (client revenue receiver : Account) (debtReason cashReason : String) :
    EndsUp o revenue receiver [settlementTransaction env id o revenue client .completed debtReason,
      settlementTransaction env id o client receiver .completed cashReason] := by
  intro a
  rw [effectOf_cons, effectOf_cons, effectOf_nil, rowEffect_completed, rowEffect_completed]
  omega

theorem endsUp_of_card {cardReason : String} {payments : List FinancialTransaction}
    (h : cardPayment env id o cardReason d client = .ok payments) (revenue : Account)
    (debtReason : String) : EndsUp o revenue client
      (settlementTransaction env id o revenue client .completed debtReason :: payments) := by
  unfold cardPayment at h
  split at h
  · cases h
  · next card _ =>
    cases h
    exact (endsUp_debt client revenue card debtReason cardReason).2

/-- The settlement of a delivery. -/
theorem Settling.delivery
    (h : Settling env id o reason (deliveryPayment env id o) d client revenue rows) :
    ∃ debtor, deliveryDebtor d o client = some debtor ∧ EndsUp o revenue debtor rows := by
  obtain ⟨payments, hpayments, rfl⟩ := h.rows_eq
  rw [deliveryDebtor]
  unfold deliveryPayment at hpayments
  cases hmethod : o.paymentMethod with
  | cash =>
    cases hcourier : o.courierId with
    | none =>
      rw [hmethod, hcourier] at hpayments
      cases hpayments
      exact ⟨client, rfl, (endsUp_debt client revenue client reason "").1⟩
    | some courierId =>
      rw [hmethod, hcourier] at hpayments
      dsimp only at hpayments ⊢
      split at hpayments
      · cases hpayments
      · next courier haccount =>
        cases hpayments
        exact ⟨courier, haccount, endsUp_paid client revenue courier _ _⟩
  | card =>
    rw [hmethod] at hpayments
    exact ⟨client, rfl, endsUp_of_card hpayments revenue reason⟩
  | contract =>
    rw [hmethod] at hpayments
    cases hpayments
    exact ⟨client, rfl, (endsUp_debt client revenue client reason "").1⟩

/-- The settlement of a pickup. -/
theorem Settling.pickup
    (h : Settling env id o reason (pickupPayment env id o) d client revenue rows) :
    ∃ debtor, pickupDebtor d o client = some debtor ∧ EndsUp o revenue debtor rows := by
  obtain ⟨payments, hpayments, rfl⟩ := h.rows_eq
  rw [pickupDebtor]
  unfold pickupPayment at hpayments
  cases hmethod : o.paymentMethod with
  | cash =>
    rw [hmethod] at hpayments
    dsimp only at hpayments ⊢
    split at hpayments
    · cases hpayments
    · next cash haccount =>
      cases hpayments
      exact ⟨cash, haccount, endsUp_paid client revenue cash _ _⟩
  | card =>
    rw [hmethod] at hpayments
    exact ⟨client, rfl, endsUp_of_card hpayments revenue reason⟩
  | contract =>
    rw [hmethod] at hpayments
    cases hpayments
    exact ⟨client, rfl, (endsUp_debt client revenue client reason "").1⟩

end Amounts

end Munavvar.Settlements
