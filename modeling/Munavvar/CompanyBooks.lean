import Munavvar.AccountConservation
import Munavvar.Dashboard
import Munavvar.RegistryKeeping

/-!
# The books of the company

The stock ledger and the financial ledger are settled together with their
balances. Every service and every command keeps them so: a new inventory and a
new account start with nothing, and an inventory that is deleted has nothing
left, because nothing ever moved through it.
-/

namespace Munavvar.CompanyBooks

open Munavvar.KeyedTable
open Munavvar.Transaction
open Munavvar.Transaction.Prog
open Munavvar.Invariance
open Munavvar.Database
open Munavvar.DoubleEntry
open Munavvar.StockLedger
open Munavvar.FinancialLedger
open Munavvar.ClientService
open Munavvar.WarehouseNames (withInventories)
open Munavvar.Transports
open Munavvar.Footprints
open Munavvar.OrderEffects
open Munavvar.PaymentDesk
open Munavvar.LedgerKeeping
open Munavvar.RegistryKeeping
open Munavvar.Dashboard (Ledger Placed statement_placed)

/-! ## Statements on one of the ledgers -/

/-- Statements on the movements of stock and on the balances of inventories. -/
def OnStock : (k : Key) → Stmt k → Prop
  | .stockTransaction _, _ => True
  | .balance _ _, _ => True
  | _, _ => False

/-- Statements on financial transactions and on the balances of accounts. -/
def OnAccounts : (k : Key) → Stmt k → Prop
  | .transaction _, _ => True
  | .account _, _ => True
  | _, _ => False

theorem insertStockTransactions_onStock (rows : List (Uuid × StockTransaction)) :
    Within (S := schema) OnStock (fun _ => True) (insertStockTransactions rows) :=
  insertStockTransactions_within (fun _ _ => trivial) (fun _ _ _ => trivial) (fun _ => trivial)
    (fun _ => trivial) rows

theorem insertTransactions_onAccounts (rows : List (Uuid × FinancialTransaction)) :
    Within (S := schema) OnAccounts (fun _ => True) (insertTransactions rows) :=
  insertTransactions_within (fun _ _ => trivial) (fun _ _ => trivial) (fun _ => trivial)
    (fun _ => trivial) rows

theorem updateTransaction_onAccounts (id : Uuid) (data : TransactionUpdate) :
    Within (S := schema) OnAccounts (fun _ => True) (updateTransaction id data) := by
  refine within_bind (within_locked _) fun old => ?_
  cases old with
  | none => exact within_ret _
  | some old =>
    refine within_bind ((within_execute _ _).mpr trivial) fun _ => ?_
    refine within_bind ((within_raiseIf _ _).mpr fun _ => trivial) fun _ => ?_
    refine within_bind ((within_raiseIf _ _).mpr fun _ => trivial) fun _ => ?_
    refine (within_whenever _ _).mpr fun _ => ?_
    refine within_bind (within_locked _) fun _ => within_bind (within_locked _) fun _ => ?_
    exact within_bind ((within_execute _ _).mpr trivial) fun _ => (within_execute _ _).mpr trivial

/-- The payment desk works on accounts only. -/
theorem payment_onAccounts (env : Env) (op : PaymentOperation) :
    Within (S := schema) OnAccounts (fun _ => True) (op.program env) := by
  have hadd : ∀ row, Within (S := schema) OnAccounts (fun _ => True) (addTransaction env row) := by
    intro row
    refine within_bind (insertTransactions_onAccounts _) fun _ => within_bind (within_ask _) fun _ => ?_
    exact (within_raiseIf _ _).mpr fun _ => trivial
  cases op with
  | acceptPayment dto acceptedById =>
    refine within_bind (within_ask _) fun d => ?_
    refine within_bind ((within_orRaise _ _).mpr fun _ => trivial) fun client => ?_
    exact within_bind ((within_orRaise _ _).mpr fun _ => trivial) fun target => hadd _
  | createTransaction dto createdById =>
    refine within_bind ((within_raiseIf _ _).mpr fun _ => trivial) fun _ => ?_
    refine within_bind (within_ask _) fun d => ?_
    refine within_bind ((within_orRaise _ _).mpr fun _ => trivial) fun source => ?_
    exact within_bind ((within_orRaise _ _).mpr fun _ => trivial) fun target => hadd _
  | decide id decision =>
    cases decision <;>
      exact within_bind (within_locked _) fun row =>
        within_bind ((within_orRaise _ _).mpr fun _ => trivial) fun txn =>
          within_bind ((within_raiseIf _ _).mpr fun _ => trivial) fun _ =>
            updateTransaction_onAccounts _ _

/-! ## Stock -/

/-- The stock ledger is settled by its movements, its balances and which
inventories there are; inventories that are new have no balances yet. -/
theorem ledger_of_same {s s' : Db} (h : Ledger s)
    (hmovements : s'.stockTransactions = s.stockTransactions) (hbalances : s'.balances = s.balances)
    (hfound : ∀ i, (s.directory.inventory? i).isSome = true →
      (s'.directory.inventory? i).isSome = true)
    (hphysical : ∀ i, s'.directory.isPhysical i = true →
      s.directory.isPhysical i = true ∨ s.directory.inventory? i = none) : Ledger s' := by
  have hsettled := h.settled
  constructor
  · constructor
    · rw [hmovements, hbalances]
      exact hsettled.lag
    · rw [hmovements]
      exact hsettled.rows_ok
    · rw [hbalances]
      exact hsettled.product_total
    · intro i p hi
      rw [hbalances]
      rcases hphysical i hi with hold | hnew
      · exact hsettled.physical_nonneg i p hold
      · have hnone : s.balances.find? (i, p) = none := by
          rw [Option.eq_none_iff_forall_ne_some]
          intro q hq
          have hplaced := h.placed _ q hq
          rw [hnew] at hplaced
          cases hplaced
        rw [balance, hnone]
        exact le_refl 0
  · intro a q hq
    rw [hbalances] at hq
    exact hfound a.1 (h.placed a q hq)

/-- Every service keeps the stock ledger. -/
theorem ledger_bookkeeping {R : Regime schema} (hsound : R.Sound) (hlax : R.Lax) :
    Bookkeeping R Ledger := by
  have hother : ∀ s (k : Key) (st : Stmt k) r, ¬ OnStock k st → Ledger s →
      Ledger (schema.put s k r) := by
    intro s k st r hst hs
    cases k with
    | stockTransaction id => exact absurd trivial hst
    | balance i p => exact absurd trivial hst
    | _ => exact ledger_of_same hs rfl rfl (fun _ h => h) fun _ h => .inl h
  refine bookkeeping_of hlax (fun s k st r hst hs _ => hother s k st r ?_ hs) (fun rows => ?_)
    (fun rows => ?_) fun id data => ?_
  · cases k <;> first | exact not_false | exact hst.elim
  · intro s hs
    have hsettled := StockConservation.statement_conserved hsound hlax (.insert rows) hs.settled
    have hplaced := statement_placed hsound hlax (.insert rows) hs.placed
    exact wp_mono _ (wp_and _ hsettled hplaced) (fun _ s' hs' => ⟨hs'.1, hs'.2⟩) fun _ _ => trivial
  · refine keeps_within hlax (fun s k st r hst hs _ => hother s k st r ?_ hs)
      (insertTransactions_onAccounts rows)
    cases k <;> first | exact not_false | exact hst.elim
  · refine keeps_within hlax (fun s k st r hst hs _ => hother s k st r ?_ hs)
      (updateTransaction_onAccounts id data)
    cases k <;> first | exact not_false | exact hst.elim

/-! ### Inventories that come, change and go -/

section Directories

variable {d : Directory} {i : Uuid}

theorem inventory?_append (new : Inventory) (h : (d.inventory? i).isSome = true) :
    (({ d with inventories := d.inventories ++ [new] } : Directory).inventory? i).isSome = true := by
  rw [Directory.inventory?, List.find?_append]
  rw [Directory.inventory?] at h
  rw [Option.isSome_or, h, Bool.true_or]

theorem isPhysical_append {new : Inventory} (hfresh : d.inventory? new.id = none)
    (h : ({ d with inventories := d.inventories ++ [new] } : Directory).isPhysical i = true) :
    d.isPhysical i = true ∨ d.inventory? i = none := by
  rw [Directory.isPhysical, List.any_append, Bool.or_eq_true] at h
  rcases h with h | h
  · exact .inl h
  · simp only [List.any_cons, List.any_nil, Bool.or_false, Bool.and_eq_true,
      decide_eq_true_eq] at h
    rw [h.1.1] at hfresh
    exact .inr hfresh

variable {f : Inventory → Inventory} (hf : ∀ i : Inventory, (f i).id = i.id ∧ (f i).type = i.type)

include hf in
theorem inventory?_map :
    ({ d with inventories := d.inventories.map f } : Directory).inventory? i =
      (d.inventory? i).map f := by
  rw [Directory.inventory?, List.find?_map, Directory.inventory?]
  congr 2
  funext x
  dsimp only [Function.comp]
  rw [(hf x).1]

include hf in
theorem isPhysical_map :
    ({ d with inventories := d.inventories.map f } : Directory).isPhysical i = d.isPhysical i := by
  rw [Directory.isPhysical, List.any_map, Directory.isPhysical]
  congr 1
  funext x
  dsimp only [Function.comp]
  rw [(hf x).1, (hf x).2]

theorem inventory?_filter {id : Uuid} (hne : i ≠ id) :
    ({ d with inventories := d.inventories.filter fun x => x.id ≠ id } : Directory).inventory? i =
      d.inventory? i := by
  unfold Directory.inventory?
  rw [List.find?_filter]
  congr 1
  funext x
  by_cases hx : x.id = i
  · simp [hx, hne]
  · simp [hx]

theorem isPhysical_filter {id : Uuid} (h : ({ d with
      inventories := d.inventories.filter fun x => x.id ≠ id } : Directory).isPhysical i = true) :
    d.isPhysical i = true := by
  obtain ⟨x, hx, hpass⟩ := List.any_eq_true.mp h
  exact List.any_eq_true.mpr ⟨x, (List.mem_filter.mp hx).1, hpass⟩

end Directories

/-- An inventory through which nothing moved has nothing. -/
theorem balance_of_unreferenced {s : Db} (h : Ledger s) {id : Uuid} (hrefs : Unreferenced id s)
    (p : Uuid) : balance s.balances (id, p) = 0 := by
  have hlag := h.settled.lag (id, p)
  rw [StockConservation.outstanding, List.map_nil, List.sum_nil, add_zero] at hlag
  have hzero : net StockConservation.entryOf s.stockTransactions (id, p) =
      s.stockTransactions.total fun _ _ => 0 := by
    refine Table.total_congr fun n x hx => ?_
    obtain ⟨hfrom, hto⟩ := hrefs.movements n x hx
    change (entry x).effect (id, p) = 0
    rw [effect_entry, if_neg fun hx => hto hx.1, if_neg fun hx => hfrom hx.1, sub_zero]
  rw [hlag, hzero, Table.total]
  simp

/-- The deletion of an inventory keeps the ledger. -/
theorem ledger_withoutInventory {s : Db} (h : Ledger s) {id : Uuid} (hrefs : Unreferenced id s) :
    Ledger (withoutInventory id s) := by
  have hbalance : ∀ a, balance (withoutInventory id s).balances a = balance s.balances a := by
    intro a
    have hfind := s.balances.find?_restrict (fun k => k.1 ≠ id) a
    by_cases ha : a.1 = id
    · have hzero := balance_of_unreferenced h hrefs a.2
      rw [← ha] at hzero
      rw [if_neg (by simp [ha])] at hfind
      change ((s.balances.restrict fun k => k.1 ≠ id).find? a).getD 0 = _
      rw [hfind, hzero]
      rfl
    · rw [if_pos (by simp [ha])] at hfind
      change ((s.balances.restrict fun k => k.1 ≠ id).find? a).getD 0 = _
      rw [hfind, balance]
  constructor
  · refine ⟨fun a => ?_, h.settled.rows_ok, fun products => ?_, fun i p hi => ?_⟩
    · rw [hbalance]
      exact h.settled.lag a
    · rw [← h.settled.product_total products]
      change (s.balances.restrict fun k => k.1 ≠ id).total
        (fun a q => if products a.2 then q else 0) = _
      rw [Table.total_restrict]
      refine Table.total_congr fun a q hq => ?_
      by_cases ha : a.1 = id
      · have hzero := balance_of_unreferenced h hrefs a.2
        rw [← ha, balance, hq, Option.getD_some] at hzero
        simp [ha, hzero]
      · simp [ha]
    · rw [hbalance]
      exact h.settled.physical_nonneg i p (isPhysical_filter hi)
  · intro a q hq
    have hfind := s.balances.find?_restrict (fun k => k.1 ≠ id) a
    change (s.balances.restrict fun k => k.1 ≠ id).find? a = some q at hq
    rw [hq] at hfind
    by_cases ha : a.1 = id
    · rw [if_neg (by simp [ha])] at hfind
      cases hfind
    · rw [if_pos (by simp [ha])] at hfind
      change ((({ s.directory with
        inventories := s.directory.inventories.filter fun x => x.id ≠ id } : Directory)).inventory?
          a.1).isSome = true
      rw [inventory?_filter ha]
      exact h.placed a q hfind.symm

/-- Every command keeps the stock ledger. -/
theorem ledger_registering : Registering Ledger := by
  have huser : ∀ s id u, Ledger s → Ledger { s with users := s.users.put id (some u) } :=
    fun s id u hs => ledger_of_same hs rfl rfl (fun _ h => h) fun _ h => .inl h
  have haccount : ∀ s a, s.directory.account? a.id = none → Ledger s → Ledger (openAccount a s) :=
    fun s a _ hs => ledger_of_same hs rfl rfl (fun _ h => h) fun _ h => .inl h
  have hinventory : ∀ s i, s.directory.inventory? i.id = none → Ledger s →
      Ledger (withInventories (s.directory.inventories ++ [i]) s) := fun s i hfresh hs =>
    ledger_of_same hs rfl rfl (fun _ h => inventory?_append i h) fun _ h => isPhysical_append hfresh h
  constructor
  case user => exact huser
  case account => exact haccount
  case inventory => exact hinventory
  case rewrite =>
    intro s f hf hs
    refine ledger_of_same hs rfl rfl (fun i hi => ?_) fun i hi => .inl ?_
    · exact (congrArg Option.isSome (inventory?_map hf)).trans (Option.isSome_map.trans hi)
    · exact (isPhysical_map hf).symm.trans hi
  case delete => exact fun s id i _ _ _ hrefs hs => ledger_withoutInventory hs hrefs
  case client =>
    exact client_of_bookkeeping huser haccount hinventory
      (ledger_bookkeeping Regime.serial_sound Regime.serial_lax)

/-! ## Money -/

/-- The financial ledger is settled, and balances are those of accounts. -/
structure Settled (s : Db) : Prop where
  /-- No transaction waits for its trigger. -/
  settled : AccountConservation.Pending [] s
  /-- Balances have accounts. -/
  owned : ∀ id b, s.accountBalances.find? id = some b → (s.directory.account? id).isSome = true

theorem settled_of_same {s s' : Db} (h : Settled s) (htransactions : s'.transactions = s.transactions)
    (hbalances : s'.accountBalances = s.accountBalances)
    (haccounts : s'.directory.accounts = s.directory.accounts) : Settled s' := by
  have hfound : ∀ id, s'.directory.account? id = s.directory.account? id := by
    intro id
    rw [Directory.account?, haccounts, Directory.account?]
  constructor
  · constructor
    · rw [htransactions, hbalances]
      exact h.settled.lag
    · rw [hbalances]
      exact h.settled.total_zero
    · intro id
      rw [hfound, hbalances]
      exact h.settled.account_exists id
    · rw [htransactions, hbalances]
      exact h.settled.references
  · intro id b hb
    rw [hbalances] at hb
    rw [hfound]
    exact h.owned id b hb

/-- Every service keeps the financial ledger. -/
theorem settled_bookkeeping {R : Regime schema} (hsound : R.Sound) (hlax : R.Lax) :
    Bookkeeping R Settled := by
  have hother : ∀ s (k : Key) (st : Stmt k) r, ¬ OnAccounts k st → Settled s →
      Settled (schema.put s k r) := by
    intro s k st r hst hs
    cases k with
    | transaction id => exact absurd trivial hst
    | account id => exact absurd trivial hst
    | _ => exact settled_of_same hs rfl rfl rfl
  -- no statement enters a balance of an account
  have howned : ∀ s (k : Key) (st : Stmt k) r, OnAccounts k st →
      (∀ id b, s.accountBalances.find? id = some b → (s.directory.account? id).isSome = true) →
      schema.exec k st (schema.get s k) = .ok r → ∀ id b,
        (schema.put s k r).accountBalances.find? id = some b →
          ((schema.put s k r).directory.account? id).isSome = true := by
    intro s k st r hst hs hr id b hb
    cases k with
    | account j =>
      change (s.accountBalances.put j r).find? id = some b at hb
      rw [Table.find?_put] at hb
      split at hb
      · next hid =>
        cases hold : s.accountBalances.find? j with
        | some old =>
          rw [hid]
          exact hs j old hold
        | none =>
          change BalanceStmt.update st (s.accountBalances.find? j) = .ok r at hr
          rw [hold] at hr
          cases hr
          cases hb
      · exact hs id b hb
    | transaction j => exact hs id b hb
    | _ => exact hst.elim
  have hkept : ∀ st : AccountConservation.FinancialStatement,
      Within (S := schema) OnAccounts (fun _ => True) st.program → Keeps R Settled st.program := by
    intro st hst s hs
    have hsettled := AccountConservation.statement_conserved hsound hlax st hs.settled
    have hbalances := keeps_within hlax howned hst s hs.owned
    exact wp_mono _ (wp_and _ hsettled hbalances) (fun _ s' hs' => ⟨hs'.1, hs'.2⟩) fun _ _ => trivial
  refine bookkeeping_of hlax (fun s k st r hst hs _ => hother s k st r ?_ hs) (fun rows => ?_)
    (fun rows => hkept (.insert rows) (insertTransactions_onAccounts rows)) fun id data =>
    hkept (.update id data) (updateTransaction_onAccounts id data)
  · cases k <;> first | exact not_false | exact hst.elim
  · refine keeps_within hlax (fun s k st r hst hs _ => hother s k st r ?_ hs)
      (insertStockTransactions_onStock rows)
    cases k <;> first | exact not_false | exact hst.elim

/-- An account is opened with nothing. -/
theorem settled_openAccount {s : Db} {a : Account} (hfresh : s.directory.account? a.id = none)
    (h : Settled s) : Settled (openAccount a s) := by
  have hnone : s.accountBalances.find? a.id = none := by
    rw [Option.eq_none_iff_forall_ne_some]
    intro b hb
    have howned := h.owned _ b hb
    rw [hfresh] at howned
    cases howned
  have hfind : ∀ id, (openAccount a s).accountBalances.find? id =
      if id = a.id then some 0 else s.accountBalances.find? id := fun id => Table.find?_put _ _ _ _
  have hsome : ∀ id, (s.accountBalances.find? id).isSome = true →
      ((openAccount a s).accountBalances.find? id).isSome = true := by
    intro id hid
    rw [hfind]
    split
    · rfl
    · exact hid
  have haccount : ∀ id, (openAccount a s).directory.account? id =
      (s.directory.account? id).or (if a.id = id then some a else none) := by
    intro id
    rw [openAccount, Directory.account?, List.find?_append, Directory.account?]
    congr 1
    by_cases hid : a.id = id <;> simp [hid]
  constructor
  · constructor
    · intro id
      have hbalance : balance (openAccount a s).accountBalances id = balance s.accountBalances id := by
        rw [balance, hfind, balance]
        split
        · next hid =>
          rw [hid, hnone]
          rfl
        · rfl
      rw [hbalance]
      exact h.settled.lag id
    · change (s.accountBalances.put a.id (some 0)).total (fun _ b => if true then b else 0) = 0
      rw [Table.total_put, hnone, Option.elim_none, Option.elim_some, sub_zero]
      exact (add_zero _).trans h.settled.total_zero
    · intro id hid
      rw [hfind]
      split
      · rfl
      · next hne =>
        rw [haccount, if_neg (Ne.symm hne), Option.or_none] at hid
        exact h.settled.account_exists id hid
    · intro id x hx
      exact (h.settled.references id x hx).imp (fun hboth => ⟨hsome _ hboth.1, hsome _ hboth.2⟩)
        fun hmem => hmem
  · intro id b hb
    rw [haccount, Option.isSome_or, Bool.or_eq_true]
    rw [hfind] at hb
    split at hb
    · next hid =>
      rw [hid, if_pos rfl]
      exact .inr rfl
    · exact .inl (h.owned id b hb)

/-- Every command keeps the financial ledger. -/
theorem settled_registering : Registering Settled := by
  have hsame : ∀ {s s' : Db}, s'.transactions = s.transactions →
      s'.accountBalances = s.accountBalances → s'.directory.accounts = s.directory.accounts →
      Settled s → Settled s' := fun ht hb ha hs => settled_of_same hs ht hb ha
  have huser : ∀ s id u, Settled s → Settled { s with users := s.users.put id (some u) } :=
    fun s id u => hsame rfl rfl rfl
  have haccount : ∀ s a, s.directory.account? a.id = none → Settled s → Settled (openAccount a s) :=
    fun s a => settled_openAccount
  have hinventory : ∀ s i, s.directory.inventory? i.id = none → Settled s →
      Settled (withInventories (s.directory.inventories ++ [i]) s) :=
    fun s i _ => hsame rfl rfl rfl
  constructor
  case user => exact huser
  case account => exact haccount
  case inventory => exact hinventory
  case rewrite => exact fun s f _ => hsame rfl rfl rfl
  case delete => exact fun s id i _ _ _ _ => hsame rfl rfl rfl
  case client =>
    exact client_of_bookkeeping huser haccount hinventory
      (settled_bookkeeping Regime.serial_sound Regime.serial_lax)

/-! ## Movements and their transfers -/

/-- Every movement is one of a transfer between the same inventories. -/
def Filed (s : Db) : Prop :=
  ∀ id x, s.stockTransactions.find? id = some x → ∃ t, s.stockTransfers.find? x.transferId = some t ∧
    t.fromId = x.fromId ∧ t.toId = x.toId

/-- A transfer is entered between two inventories. -/
def Headed (transferId fromId toId : Uuid) (s : Db) : Prop :=
  ∃ t, s.stockTransfers.find? transferId = some t ∧ t.fromId = fromId ∧ t.toId = toId

/-- A statement leaves the ends of the transfers that are there. -/
theorem headed_exec {s : Db} {k : Key} {st : Stmt k} {r : Option (Row k)} {id i j : Uuid}
    (h : Headed id i j s) (hr : schema.exec k st (schema.get s k) = .ok r) :
    Headed id i j (schema.put s k r) := by
  cases k with
  | stockTransfer n =>
    obtain ⟨t, ht, hends⟩ := h
    by_cases hn : id = n
    · subst hn
      change TransferStmt.exec st (s.stockTransfers.find? id) = .ok r at hr
      rw [ht] at hr
      cases st with
      | insert transfer => cases hr
      | addItems items =>
        obtain ⟨rfl, -⟩ := checked_ok hr
        exact ⟨_, Table.find?_put_self _ _ _, hends⟩
    · exact ⟨t, (Table.find?_put_ne _ hn _).trans ht, hends⟩
  | _ => exact h

/-- Statements that enter no movements. -/
def NoMovement : (k : Key) → Stmt k → Prop
  | .stockTransaction _, _ => False
  | _, _ => True

theorem filed_exec {s : Db} {k : Key} {st : Stmt k} {r : Option (Row k)} (hst : NoMovement k st)
    (h : Filed s) (hr : schema.exec k st (schema.get s k) = .ok r) : Filed (schema.put s k r) := by
  cases k with
  | stockTransaction id => exact hst.elim
  | stockTransfer n =>
    intro id x hx
    have hheaded : Headed x.transferId x.fromId x.toId s := h id x hx
    exact headed_exec (k := .stockTransfer n) hheaded hr
  | _ => exact h

/-- Statements that enter movements of one transfer only. -/
def MovesAlong (transferId fromId toId : Uuid) : (k : Key) → Stmt k → Prop
  | .stockTransaction _, .insert x => x.transferId = transferId ∧ x.fromId = fromId ∧ x.toId = toId
  | .stockTransaction _, _ => False
  | _, _ => True

section Filed

variable {R : Regime schema} {transferId fromId toId : Uuid}

/-- Movements of a transfer that is entered. -/
theorem keeps_movesAlong {α : Type} (hlax : R.Lax) {p : Uow α}
    (hp : Within (S := schema) (MovesAlong transferId fromId toId) (fun _ => True) p) :
    Keeps R (fun s => Filed s ∧ Headed transferId fromId toId s) p := by
  refine keeps_within hlax (fun s k st r hst hs hr => ⟨?_, headed_exec hs.2 hr⟩) hp
  cases k with
  | stockTransaction id =>
    cases st with
    | insert row =>
      obtain ⟨rfl, rfl, rfl⟩ := hst
      intro j x hx
      change (s.stockTransactions.put id r).find? j = some x at hx
      rw [Table.find?_put] at hx
      split at hx
      · change (StockTransactionStmt.insert row).exec (s.stockTransactions.find? id) = .ok r at hr
        cases hold : s.stockTransactions.find? id with
        | some old =>
          rw [hold] at hr
          cases hr
        | none =>
          rw [hold] at hr
          obtain ⟨rfl, -⟩ := checked_ok hr
          cases hx
          exact hs.2
      · exact hs.1 j x hx
    | _ => exact hst.elim
  | _ => exact filed_exec trivial hs.1 hr

theorem insertStockTransactions_movesAlong {rows : List (Uuid × StockTransaction)}
    (hrows : ∀ r ∈ rows, r.2.transferId = transferId ∧ r.2.fromId = fromId ∧ r.2.toId = toId) :
    Within (S := schema) (MovesAlong transferId fromId toId) (fun _ => True)
      (insertStockTransactions rows) := by
  refine within_bind (within_forEach_mem fun r hr => (within_execute _ _).mpr (hrows r hr)) fun _ => ?_
  exact within_forEach fun r =>
    postMovement_within (fun _ _ _ => trivial) (fun _ => trivial) (fun _ => trivial) r.2

/-- What follows the header of a transfer may rely on it. -/
theorem keeps_header {α : Type} (hlax : R.Lax) {row : StockTransfer} {f : Unit → Uow α}
    (hf : ∀ u, Keeps R (fun s => Filed s ∧ Headed transferId row.fromId row.toId s) (f u)) :
    Keeps R Filed (issue (.stockTransfer transferId) (.insert row) >>= f) := by
  intro s hs
  rw [wp_bind]
  refine wp_execute_of (hlax _ _ _) (fun _ r hr => ?_) fun _ _ => trivial
  have hfiled := filed_exec (k := .stockTransfer transferId) trivial hs hr
  change TransferStmt.exec (.insert row) (s.stockTransfers.find? transferId) = .ok r at hr
  cases hold : s.stockTransfers.find? transferId with
  | some old =>
    rw [hold] at hr
    cases hr
  | none =>
    rw [hold] at hr
    obtain ⟨rfl, -⟩ := checked_ok hr
    have hheaded : Headed transferId row.fromId row.toId
        (schema.put s (.stockTransfer transferId) (some row)) :=
      ⟨row, Table.find?_put_self _ _ _, rfl, rfl⟩
    exact wp_mono _ (hf () _ ⟨hfiled, hheaded⟩) (fun _ _ hs' => hs'.1) fun _ _ => trivial

/-- Every service files its movements. -/
theorem filed_bookkeeping (hlax : R.Lax) : Bookkeeping R Filed := by
  have hquiet : ∀ {α : Type} {p : Uow α}, Quiet NoMovement p → Keeps R Filed p := fun hp =>
    keeps_within hlax (fun s k st r hst hs hr => filed_exec hst hs hr) hp
  have haccounts : ∀ {α : Type} {p : Uow α}, Within (S := schema) OnAccounts (fun _ => True) p →
      Keeps R Filed p := by
    intro α p hp
    refine keeps_within hlax (fun s k st r hst hs hr => filed_exec ?_ hs hr) hp
    cases k <;> first | exact hst.elim | trivial
  have hsettle : ∀ env id o missing debt payment,
      Keeps R Filed (Fulfillment.settle env id o missing debt payment) := by
    intro env id o missing debt payment
    exact haccounts (settle_within (fun _ _ => trivial) (fun _ _ => trivial) (fun _ => trivial)
      (fun _ => trivial) (fun _ _ _ => trivial) env id o missing debt fun _ _ _ _ => trivial)
  have htransfer : ∀ env n fromId toId type items createdById acceptedById orderId reason,
      Keeps R Filed (createStockTransfer env n fromId toId type items createdById acceptedById
        orderId reason) := by
    intro env n fromId toId type items createdById acceptedById orderId reason
    refine keeps_bind (keeps_ask _) fun d => keeps_header hlax fun _ => keeps_movesAlong hlax ?_
    refine within_bind ((within_raiseIf _ _).mpr fun _ => trivial) fun _ => ?_
    refine within_bind ((within_raiseIf _ _).mpr fun _ => trivial) fun _ => ?_
    refine within_bind ((within_execute _ _).mpr trivial) fun _ => ?_
    refine insertStockTransactions_movesAlong fun r hr => ?_
    obtain ⟨x, -, rfl⟩ := List.mem_map.mp hr
    exact ⟨rfl, rfl, rfl⟩
  have hstock : StockKeeping R Filed := by
    constructor
    case lax => exact hlax
    case elsewhere =>
      intro s k st r hst hs hr
      refine filed_exec ?_ hs hr
      cases k <;> first | exact hst.elim | trivial
    case transfer => exact fun _ _ _ _ _ _ _ _ _ => htransfer _ _ _ _ _ _ _ _ _ _
    case initialBalance =>
      intro env n toId items createdById
      refine keeps_bind (hquiet getVendorInventory_quiet) fun vendor => ?_
      refine keeps_bind (keeps_ask _) fun d => keeps_header hlax fun _ => keeps_movesAlong hlax ?_
      refine within_bind ((within_raiseIf _ _).mpr fun _ => trivial) fun _ => ?_
      refine within_bind ((within_raiseIf _ _).mpr fun _ => trivial) fun _ => ?_
      refine within_forEach fun x => within_bind ((within_execute _ _).mpr trivial) fun _ => ?_
      refine within_bind (within_ask _) fun product => ?_
      refine within_bind ((within_raiseIf _ _).mpr fun _ => trivial) fun _ => ?_
      refine insertStockTransactions_movesAlong fun r hr => ?_
      rw [List.mem_singleton] at hr
      subst hr
      exact ⟨rfl, rfl, rfl⟩
  constructor
  case toStockKeeping => exact hstock
  case orderTransfer => exact fun _ _ _ _ _ _ _ _ _ _ => htransfer _ _ _ _ _ _ _ _ _ _
  case delivery => exact fun env id o => hsettle _ _ _ _ _ _
  case pickup => exact fun env id o => hsettle _ _ _ _ _ _
  case payment => exact fun env op => haccounts (payment_onAccounts env op)

/-- Every command leaves the movements filed. -/
theorem filed_registering : Registering Filed where
  user _ _ _ hs := hs
  account _ _ _ hs := hs
  inventory _ _ _ hs := hs
  rewrite _ _ _ hs := hs
  delete _ _ _ _ _ _ _ hs := hs
  client := client_of_bookkeeping (fun _ _ _ hs => hs) (fun _ _ _ hs => hs) (fun _ _ _ hs => hs)
    (filed_bookkeeping Regime.serial_lax)

end Filed

end Munavvar.CompanyBooks
