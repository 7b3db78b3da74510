import Munavvar.StockLedger
import Munavvar.Statements
import Munavvar.Bag

/-!
# Stock transfers

What a transfer does to the balances when its transaction runs alone. The guard
of the trigger looks at one movement after another, and together they ask that
the source holds all that the lines take of a product. Whatever else a transfer
can fail of is either allowed or ruled out by what is known of its rows.
-/

namespace Munavvar.StockTransfers

open Munavvar.KeyedTable
open Munavvar.Transaction
open Munavvar.Transaction.Prog
open Munavvar.Database
open Munavvar.DoubleEntry
open Munavvar.StockLedger
open Munavvar.Statements
open Munavvar.Bag (amount)

/-- The exception of the guard. -/
def isNegativeBalance : Err → Bool
  | .negativeBalance _ => true
  | _ => false

/-- No statement raises the exception of the guard, only its trigger does. -/
theorem exec_not_negative (k : Key) (st : Stmt k) (old : Option (Row k)) {e : Err}
    (h : exec k st old = .error e) : isNegativeBalance e = false := by
  have h := exec_isConstraint k st old h
  cases e <;> first | rfl | exact absurd h (by simp [isConstraint])

/-- A condition is met, or every failure but that of the guard is allowed. -/
def Granted (E : Err → Prop) (c : Prop) : Prop := c ∨ ∀ e, isNegativeBalance e = false → E e

theorem Granted.imp {E : Err → Prop} {c c' : Prop} (h : Granted E c) (hc : c → c') : Granted E c' :=
  Or.imp_left hc h

/-- What is raised where the condition is not met is allowed. -/
theorem Granted.err {E : Err → Prop} {c : Prop} (h : Granted E c) (hc : ¬ c) {e : Err}
    (he : isNegativeBalance e = false) : E e := by
  rcases h with h | hany
  · exact absurd h hc
  · exact hany e he

/-- Stock of an inventory that is really there is not below zero. -/
def NonNegative (s : Db) (i : Uuid) : Prop :=
  s.directory.isPhysical i = true → ∀ p, 0 ≤ balance s.balances (i, p)

/-- Quantities have moved from one inventory to another. -/
def Transferred (fromId toId : Uuid) (quantity : Uuid → ℤ) (b b' : Table (Uuid × Uuid) ℤ) : Prop :=
  ∀ i p, balance b' (i, p) =
    balance b (i, p) + (if i = toId then quantity p else 0) - if i = fromId then quantity p else 0

/-- How much of each product some movements move. -/
def moved (movements : List (Uuid × StockTransaction)) (p : Uuid) : ℤ :=
  amount (movements.map fun r => (r.2.productId, r.2.quantity)) p

@[simp] theorem moved_nil (p : Uuid) : moved [] p = 0 := rfl

theorem moved_append (l l' : List (Uuid × StockTransaction)) (p : Uuid) :
    moved (l ++ l') p = moved l p + moved l' p := by
  rw [moved, List.map_append, Bag.amount_append, moved, moved]

theorem moved_singleton (r : Uuid × StockTransaction) (p : Uuid) :
    moved [r] p = if r.2.productId = p then r.2.quantity else 0 := by
  rw [moved, List.map_singleton, Bag.amount_cons, Bag.amount_nil, add_zero]

theorem moved_nonneg {l : List (Uuid × StockTransaction)} (h : ∀ r ∈ l, 0 < r.2.quantity)
    (p : Uuid) : 0 ≤ moved l p := by
  refine Bag.amount_nonneg (fun x hx => ?_) p
  obtain ⟨r, hr, rfl⟩ := List.mem_map.mp hx
  exact (h r hr).le

theorem int32_iff (n : ℤ) : int32 n = true ↔ -2147483648 ≤ n ∧ n ≤ 2147483647 := by
  rw [int32, Bool.and_eq_true, decide_eq_true_eq, decide_eq_true_eq]

/-- Movements of one transfer between two inventories. -/
structure MovementsOf (transferId fromId toId : Uuid)
    (movements : List (Uuid × StockTransaction)) : Prop where
  /-- The document. -/
  transfer : ∀ r ∈ movements, r.2.transferId = transferId
  /-- The inventory that gives. -/
  source : ∀ r ∈ movements, r.2.fromId = fromId
  /-- The inventory that takes. -/
  target : ∀ r ∈ movements, r.2.toId = toId
  /-- Only positive quantities are moved. -/
  pos : ∀ r ∈ movements, 0 < r.2.quantity

/-- New rows that fit the ledger's columns. -/
structure Storable (movements : List (Uuid × StockTransaction)) (s : Db) : Prop where
  /-- The identifiers are not in use. -/
  new : ∀ r ∈ movements, s.stockTransactions.find? r.1 = none
  /-- Neither are they used twice. -/
  distinct : (movements.map Prod.fst).Nodup
  /-- The quantities fit the column. -/
  range : ∀ r ∈ movements, int32 r.2.quantity = true

/-- The ledger before and after movements have been stored. -/
structure Stored (movements : List (Uuid × StockTransaction))
    (x x' : Table Uuid StockTransaction) : Prop where
  /-- Every movement is found. -/
  found : ∀ r ∈ movements, x'.find? r.1 = some r.2
  /-- Other identifiers are as they were. -/
  other_eq : ∀ id, id ∉ movements.map Prod.fst → x'.find? id = x.find? id
  /-- No movement was overwritten. -/
  kept : ∀ id row, x.find? id = some row → x'.find? id = some row

theorem stored_nil (x : Table Uuid StockTransaction) : Stored [] x x where
  found _ hr := absurd hr List.not_mem_nil
  other_eq _ _ := rfl
  kept _ _ h := h

/-- One more movement under an identifier that was not in use. -/
theorem Stored.put {movements : List (Uuid × StockTransaction)} {x x' : Table Uuid StockTransaction}
    (h : Stored movements x x') {r : Uuid × StockTransaction} (hid : x'.find? r.1 = none) :
    Stored (movements ++ [r]) x (x'.put r.1 (some r.2)) := by
  have hold : ∀ id row, x'.find? id = some row → (x'.put r.1 (some r.2)).find? id = some row := by
    intro id row hrow
    have hne : id ≠ r.1 := by
      intro heq
      rw [heq, hid] at hrow
      cases hrow
    exact (Table.find?_put_ne x' hne _).trans hrow
  constructor
  · intro y hy
    rcases List.mem_append.mp hy with hy | hy
    · exact hold y.1 y.2 (h.found y hy)
    · rw [List.mem_singleton.mp hy]
      exact Table.find?_put_self x' r.1 _
  · intro id hnot
    rw [List.map_append, List.mem_append, not_or, List.map_singleton, List.mem_singleton] at hnot
    exact (Table.find?_put_ne x' hnot.2 _).trans (h.other_eq id hnot.1)
  · exact fun id row hrow => hold id row (h.kept id row hrow)

/-- A balance fits its column before and after a change. -/
def FitsColumn (b delta : ℤ) : Prop := int32 b = true ∧ int32 (b + delta) = true

/-- Movements whose foreign keys and balances are in order. -/
structure Postable (transferId fromId toId : Uuid) (quantity : Uuid → ℤ) (s : Db) : Prop where
  /-- The source exists. -/
  source_known : (s.directory.inventory? fromId).isSome = true
  /-- The target exists. -/
  target_known : (s.directory.inventory? toId).isSome = true
  /-- The document has the same route. -/
  document : ∃ d, s.stockTransfers.find? transferId = some d ∧ d.fromId = fromId ∧ d.toId = toId
  /-- No balance leaves the range of its column. -/
  range : ∀ p, 0 < quantity p → FitsColumn (balance s.balances (fromId, p)) (-quantity p) ∧
    FitsColumn (balance s.balances (toId, p)) (quantity p)

/-- The movements of a transfer's lines. -/
def movementsFor (env : Env) (n : ℕ) (fromId toId : Uuid) (items : List (Uuid × ℤ)) :
    List (Uuid × StockTransaction) :=
  items.zipIdx.map fun x =>
    (env.uuid n (x.2 + 1), ⟨env.uuid n 0, x.1.1, fromId, toId, x.1.2, env.now⟩)

section Movements

variable (env : Env) (n : ℕ) (fromId toId : Uuid) {items : List (Uuid × ℤ)}

theorem mem_movementsFor {r : Uuid × StockTransaction}
    (h : r ∈ movementsFor env n fromId toId items) :
    ∃ x ∈ items, ∃ j, r = (env.uuid n (j + 1), ⟨env.uuid n 0, x.1, fromId, toId, x.2, env.now⟩) := by
  obtain ⟨⟨x, j⟩, hx, rfl⟩ := List.mem_map.mp h
  exact ⟨x, (List.mem_zipIdx' hx).2 ▸ List.getElem_mem _, j, rfl⟩

theorem movementsFor_of (hpos : ∀ x ∈ items, 0 < x.2) :
    MovementsOf (env.uuid n 0) fromId toId (movementsFor env n fromId toId items) := by
  refine ⟨fun r hr => ?_, fun r hr => ?_, fun r hr => ?_, fun r hr => ?_⟩ <;>
    obtain ⟨x, hx, j, rfl⟩ := mem_movementsFor env n fromId toId hr
  · rfl
  · rfl
  · rfl
  · exact hpos x hx

theorem moved_movementsFor : moved (movementsFor env n fromId toId items) = amount items := by
  funext p
  rw [moved, movementsFor, List.map_map]
  exact congrArg (amount · p) (List.zipIdx_map_fst 0 items)

theorem movementsFor_distinct (hinj : ∀ j j', env.uuid n j = env.uuid n j' → j = j') :
    ((movementsFor env n fromId toId items).map Prod.fst).Nodup := by
  have hids : (movementsFor env n fromId toId items).map Prod.fst =
      (List.range' 0 items.length).map fun j => env.uuid n (j + 1) := by
    rw [movementsFor, List.map_map, ← List.zipIdx_map_snd 0 items, List.map_map]
    rfl
  rw [hids]
  exact List.Nodup.map (fun j j' h => Nat.succ.inj (hinj _ _ h)) List.nodup_range'

end Movements

section Rules

variable {R : Regime schema} {E : Err → Prop} {s : Db}

/-- The rows of one `INSERT` are stored before the first trigger fires. -/
theorem wp_storeMovements (hlax : R.Lax) {transferId fromId toId : Uuid}
    {movements : List (Uuid × StockTransaction)}
    (hrows : MovementsOf transferId fromId toId movements) (hroute : fromId ≠ toId)
    (hother : Granted E (Storable movements s)) {Q : Unit → Db → Prop}
    (hQ : ∀ x, Stored movements s.stockTransactions x → Q () { s with stockTransactions := x }) :
    wp R (forEach movements fun r => issue (.stockTransaction r.1) (.insert r.2)) Q E s := by
  refine wp_loop (fun done s' => ∃ x, s' = { s with stockTransactions := x } ∧
      Stored done s.stockTransactions x) ⟨_, rfl, stored_nil _⟩ ?_ ?_
  · rintro done r todo _ hdone ⟨x, rfl, hx⟩
    have hr : r ∈ movements := hdone ▸ List.mem_append_right _ List.mem_cons_self
    refine wp_execute_of (hlax _ _ _) (fun _ row hrow => ?_) fun e he => ?_
    · change (StockTransactionStmt.insert r.2).exec (x.find? r.1) = .ok row at hrow
      cases hid : x.find? r.1 with
      | some old =>
        rw [hid] at hrow
        cases hrow
      | none =>
        rw [hid] at hrow
        obtain ⟨rfl, -⟩ := checked_ok hrow
        exact ⟨_, rfl, hx.put hid⟩
    · rcases hother with hok | hany
      · have hfresh : r.1 ∉ done.map Prod.fst := by
          have hdistinct := hok.distinct
          rw [← hdone, List.map_append, List.map_cons, List.nodup_middle,
            List.nodup_cons] at hdistinct
          exact fun h => hdistinct.1 (List.mem_append_left _ h)
        have hid : x.find? r.1 = none := (hx.other_eq r.1 hfresh).trans (hok.new r hr)
        change (StockTransactionStmt.insert r.2).exec (x.find? r.1) = .error e at he
        rw [hid] at he
        have hne : r.2.fromId ≠ r.2.toId := by rwa [hrows.source r hr, hrows.target r hr]
        simp [StockTransactionStmt.exec, checked, hok.range r hr, hrows.pos r hr, hne] at he
      · exact hany e (exec_not_negative (.stockTransaction r.1) _ _ he)
  · rintro _ ⟨x, rfl, hx⟩
    exact hQ x hx

/-- The triggers of a transfer's movements: they fail of the guard only if the
source holds less than what is moved. -/
theorem wp_postMovements (hexact : R.Exact) (hlax : R.Lax) {transferId fromId toId : Uuid}
    {movements : List (Uuid × StockTransaction)}
    (hrows : MovementsOf transferId fromId toId movements) (hroute : fromId ≠ toId)
    (hother : Granted E (Postable transferId fromId toId (moved movements) s))
    (hshort : NonNegative s toId ∧ (s.directory.isPhysical fromId = true →
        ∀ p, moved movements p ≤ balance s.balances (fromId, p)) ∨
      ∀ message, E (.negativeBalance message)) {Q : Unit → Db → Prop}
    (hQ : ∀ b, Transferred fromId toId (moved movements) s.balances b →
      (∀ i, i = fromId ∨ i = toId → NonNegative s i → NonNegative { s with balances := b } i) →
      (∀ p, 0 < moved movements p → int32 (balance b (toId, p)) = true) →
      Q () { s with balances := b }) :
    wp R (forEach movements fun r => do checkRoute r.2; updateInventoryBalances r.2) Q E s := by
  have hsound : R.Sound := fun s v hv => congrArg _ (hexact s v hv)
  refine wp_loop (fun done s' => ∃ b, s' = { s with balances := b } ∧
      Transferred fromId toId (moved done) s.balances b ∧
      (∀ i, i = fromId ∨ i = toId → NonNegative s i → NonNegative { s with balances := b } i) ∧
      ∀ p, 0 < moved done p → int32 (balance b (toId, p)) = true)
    ⟨_, rfl, fun i p => by simp, fun i _ h => h, fun p h => absurd h (lt_irrefl 0)⟩ ?_ ?_
  · rintro done r todo _ hdone ⟨b, rfl, hb, hkept, hfits⟩
    have hr : r ∈ movements := hdone ▸ List.mem_append_right _ List.mem_cons_self
    have hpos := hrows.pos r hr
    have hsplit : ∀ p, moved movements p =
        moved done p + (if r.2.productId = p then r.2.quantity else 0) + moved todo p := by
      intro p
      rw [← hdone, moved_append, ← List.singleton_append, moved_append, moved_singleton, add_assoc]
    have htodo : ∀ p, 0 ≤ moved todo p := moved_nonneg fun x hx =>
      hrows.pos x (hdone ▸ List.mem_append_right _ (List.mem_cons_of_mem _ hx))
    have hdoneNonneg : ∀ p, 0 ≤ moved done p := moved_nonneg fun x hx =>
      hrows.pos x (hdone ▸ List.mem_append_left _ hx)
    rw [wp_bind, checkRoute]
    simp only [wp_bind, wp_ask, wp_raiseIf]
    intro v hv v' hv'
    obtain rfl := hexact _ _ hv
    obtain rfl := hexact _ _ hv'
    rw [hrows.source r hr, hrows.target r hr, hrows.transfer r hr]
    refine ⟨fun hnone => ?_, fun _ => ⟨fun hnone => ?_, fun _ => ⟨fun hnone => ?_, fun _ => ?_⟩⟩⟩
    · refine hother.err (fun hok => ?_) rfl
      exact absurd hok.source_known (by simpa using hnone)
    · refine hother.err (fun hok => ?_) rfl
      exact absurd hok.target_known (by simpa using hnone)
    · refine hother.err (fun hok => ?_) rfl
      obtain ⟨d, hd, hdfrom, hdto⟩ := hok.document
      exact absurd hnone (by simp [hd, hdfrom, hdto])
    · have heffect : ∀ i p, (entry r.2).effect (i, p) =
          (if i = toId then (if r.2.productId = p then r.2.quantity else 0) else 0) -
            if i = fromId then (if r.2.productId = p then r.2.quantity else 0) else 0 := by
        intro i p
        rw [effect_entry, hrows.source r hr, hrows.target r hr]
        simp only [ite_and, eq_comm]
      refine updateInventoryBalances_spec hsound hlax r.2 ?_ ?_ fun b' hposted => ?_
      · rcases hother with hok | hany
        · have hall := hsplit r.2.productId
          have hdoneNonneg := hdoneNonneg r.2.productId
          have htodo := htodo r.2.productId
          rw [if_pos rfl] at hall
          have hfrom := hb fromId r.2.productId
          have hto := hb toId r.2.productId
          obtain ⟨⟨hlow, hlow'⟩, hhigh, hhigh'⟩ := hok.range r.2.productId (by omega)
          rw [int32_iff] at hlow hlow' hhigh hhigh'
          rw [if_neg hroute, if_pos rfl] at hfrom
          rw [if_pos rfl, if_neg (Ne.symm hroute)] at hto
          refine .inl ⟨by rwa [hrows.source r hr, hrows.target r hr], ?_, ?_⟩
          · change int32 (balance b (r.2.fromId, r.2.productId) - r.2.quantity) = true
            rw [hrows.source r hr, int32_iff]
            omega
          · change int32 (balance b (r.2.toId, r.2.productId) + r.2.quantity) = true
            rw [hrows.target r hr, int32_iff]
            omega
        · exact .inr (hany _ rfl)
      · intro i hi hphysical hneg message
        change balance b (i, r.2.productId) + _ < 0 at hneg
        rw [heffect, if_pos rfl] at hneg
        rw [hrows.source r hr, hrows.target r hr] at hi
        rcases hshort with ⟨htarget, hcovered⟩ | hany
        · rcases hi with rfl | rfl
          · -- all that is moved would have been there
            have hcovered := hcovered hphysical r.2.productId
            have hall := hsplit r.2.productId
            have hbefore := hb i r.2.productId
            have htodo := htodo r.2.productId
            rw [if_neg hroute, if_pos rfl] at hneg
            rw [if_pos rfl] at hall
            rw [if_neg hroute, if_pos rfl] at hbefore
            omega
          · have hbefore : 0 ≤ balance b (i, r.2.productId) :=
              hkept i (.inr rfl) htarget hphysical r.2.productId
            rw [if_pos rfl, if_neg (Ne.symm hroute)] at hneg
            omega
        · exact hany message
      · have hb' : Transferred fromId toId (moved (done ++ [r])) s.balances b' := by
          intro i p
          rw [hposted.balance_eq, heffect, hb, moved_append, moved_singleton]
          split <;> split <;> omega
        have hsame : ∀ i p, r.2.productId ≠ p → balance b' (i, p) = balance b (i, p) := by
          intro i p hp
          rw [hposted.balance_eq, heffect, if_neg hp, ite_self, ite_self, sub_zero, add_zero]
        refine ⟨b', rfl, hb', fun i hi hnonneg hphysical p => ?_, fun p hmoved => ?_⟩
        · change 0 ≤ balance b' (i, p)
          by_cases hp : r.2.productId = p
          · rw [← hp]
            refine hposted.guard i ?_ hphysical
            rwa [hrows.source r hr, hrows.target r hr]
          · rw [hsame i p hp]
            exact hkept i hi hnonneg hphysical p
        · by_cases hp : r.2.productId = p
          · rw [← hp]
            refine hposted.fits ?_ toId (.inr (hrows.target r hr).symm)
            rwa [hrows.source r hr, hrows.target r hr]
          · rw [moved_append, moved_singleton, if_neg hp, add_zero] at hmoved
            rw [hsame toId p hp]
            exact hfits p hmoved
  · rintro _ ⟨b, rfl, hb, hkept, hfits⟩
    exact hQ b hb hkept hfits

/-- One `INSERT` of a transfer's movements. -/
theorem wp_insertStockTransactions (hexact : R.Exact) (hlax : R.Lax) {transferId fromId toId : Uuid}
    {movements : List (Uuid × StockTransaction)}
    (hrows : MovementsOf transferId fromId toId movements) (hroute : fromId ≠ toId)
    (hother : Granted E (Storable movements s ∧ Postable transferId fromId toId (moved movements) s))
    (hshort : NonNegative s toId ∧ (s.directory.isPhysical fromId = true →
        ∀ p, moved movements p ≤ balance s.balances (fromId, p)) ∨
      ∀ message, E (.negativeBalance message)) {Q : Unit → Db → Prop}
    (hQ : ∀ b x, Transferred fromId toId (moved movements) s.balances b →
      (∀ i, i = fromId ∨ i = toId → NonNegative s i → NonNegative { s with balances := b } i) →
      (∀ p, 0 < moved movements p → int32 (balance b (toId, p)) = true) →
      Stored movements s.stockTransactions x →
      Q () { s with balances := b, stockTransactions := x }) :
    wp R (insertStockTransactions movements) Q E s := by
  rw [insertStockTransactions, wp_bind]
  refine wp_storeMovements hlax hrows hroute (hother.imp And.left) fun x hx => ?_
  refine wp_postMovements (s := { s with stockTransactions := x }) hexact hlax hrows hroute ?_ hshort
    fun b hb hkept hfits => ?_
  · exact hother.imp fun h => ⟨h.2.source_known, h.2.target_known, h.2.document, h.2.range⟩
  · exact hQ b x hb hkept hfits hx

/-- A transfer that nothing but missing stock can stop. -/
structure Insertable (env : Env) (n : ℕ) (fromId toId : Uuid) (items : List (Uuid × ℤ))
    (reason : Option String) (s : Db) : Prop where
  /-- New identifiers differ. -/
  ids_inj : ∀ j j', env.uuid n j = env.uuid n j' → j = j'
  /-- No transfer has the new identifier. -/
  transfer_new : s.stockTransfers.find? (env.uuid n 0) = none
  /-- No movement has one of the new identifiers. -/
  movements_new : ∀ j, s.stockTransactions.find? (env.uuid n j) = none
  /-- The source exists. -/
  source_known : (s.directory.inventory? fromId).isSome = true
  /-- The target exists. -/
  target_known : (s.directory.inventory? toId).isSome = true
  /-- They are two inventories. -/
  route : fromId ≠ toId
  /-- The reason fits its column. -/
  reason_fits : fits 255 reason = true
  /-- The quantities fit the column. -/
  quantity : ∀ x ∈ items, int32 x.2 = true
  /-- No balance leaves the range of its column. -/
  range : ∀ p, 0 < amount (items.filter fun i => 0 < i.2) p →
    FitsColumn (balance s.balances (fromId, p)) (-amount (items.filter fun i => 0 < i.2) p) ∧
      FitsColumn (balance s.balances (toId, p)) (amount (items.filter fun i => 0 < i.2) p)

/-- The state after a transfer. -/
structure AfterTransfer (env : Env) (n : ℕ) (fromId toId : Uuid) (items : List (Uuid × ℤ))
    (s s' : Db) : Prop where
  /-- Only the stock ledger was written. -/
  same : SameButStock s s'
  /-- The route has two ends. -/
  route : fromId ≠ toId
  /-- The balances have moved. -/
  transferred : Transferred fromId toId (amount (items.filter fun i => 0 < i.2)) s.balances s'.balances
  /-- Both ends have passed the guard. -/
  nonneg : ∀ i, i = fromId ∨ i = toId → NonNegative s i → NonNegative s' i
  /-- What the target holds of a product that was moved fits the column. -/
  fits : ∀ p, 0 < amount (items.filter fun i => 0 < i.2) p →
    int32 (balance s'.balances (toId, p)) = true
  /-- Other transfers are as they were. -/
  transfers_eq : ∀ id, (∀ j, id ≠ env.uuid n j) → s'.stockTransfers.find? id = s.stockTransfers.find? id
  /-- Each line is a movement. -/
  recorded : Stored (movementsFor env n fromId toId (items.filter fun i => 0 < i.2))
    s.stockTransactions s'.stockTransactions

/-- Other movements are as they were. -/
theorem AfterTransfer.movements_eq {env : Env} {n : ℕ} {fromId toId : Uuid}
    {items : List (Uuid × ℤ)} {s s' : Db} (h : AfterTransfer env n fromId toId items s s')
    {id : Uuid} (hid : ∀ j, id ≠ env.uuid n j) :
    s'.stockTransactions.find? id = s.stockTransactions.find? id := by
  refine h.recorded.other_eq id fun hmem => ?_
  obtain ⟨r, hr, rfl⟩ := List.mem_map.mp hmem
  obtain ⟨_, _, j, rfl⟩ := mem_movementsFor env n fromId toId hr
  exact hid (j + 1) rfl

/-- A transfer fails of the guard only if the source holds less than it moves. -/
theorem wp_createStockTransfer (hexact : R.Exact) (hlax : R.Lax) {env : Env} {n : ℕ}
    {fromId toId : Uuid} {type : TransferType} {items : List (Uuid × ℤ)} {createdById : Uuid}
    {acceptedById orderId : Option Uuid} {reason : Option String}
    (hother : Granted E (Insertable env n fromId toId items reason s))
    (hshort : NonNegative s toId ∧ (s.directory.isPhysical fromId = true →
        ∀ p, amount (items.filter fun i => 0 < i.2) p ≤ balance s.balances (fromId, p)) ∨
      ∀ message, E (.negativeBalance message)) {Q : Unit → Db → Prop}
    (hQ : ∀ s', AfterTransfer env n fromId toId items s s' → Q () s') :
    wp R (createStockTransfer env n fromId toId type items createdById acceptedById orderId reason)
      Q E s := by
  rw [createStockTransfer, wp_bind]
  refine wp_ask_exact hexact ?_
  let effectiveItems := items.filter fun i => 0 < i.2
  have hpos : ∀ x ∈ effectiveItems, 0 < x.2 := fun x hx => by simpa using (List.mem_filter.mp hx).2
  rw [wp_bind]
  refine wp_execute_of (hlax _ _ _) (fun _ r hr => ?_) fun e he => ?_
  · change TransferStmt.exec (.insert _) (s.stockTransfers.find? (env.uuid n 0)) = .ok r at hr
    cases hid : s.stockTransfers.find? (env.uuid n 0) with
    | some old =>
      rw [hid] at hr
      cases hr
    | none =>
      rw [hid] at hr
      obtain ⟨rfl, hchecks⟩ := checked_ok hr
      have hroute : fromId ≠ toId := by
        simpa using hchecks _ (List.mem_cons_of_mem _ List.mem_cons_self)
      let document : StockTransfer := ⟨fromId, toId, type, .completed, createdById,
        some (acceptedById.getD createdById), orderId, reason, []⟩
      have hwritten := s.stockTransfers.written_put (env.uuid n 0) (some document)
      rw [wp_bind, wp_raiseIf]
      refine ⟨fun hnone => hother.err (fun hok => ?_) rfl, fun _ => ?_⟩
      · exact absurd hok.source_known (by simpa using hnone)
      rw [wp_bind, wp_raiseIf]
      refine ⟨fun hnone => hother.err (fun hok => ?_) rfl, fun _ => ?_⟩
      · exact absurd hok.target_known (by simpa using hnone)
      rw [wp_bind]
      refine wp_execute_of (hlax _ _ _) (fun _ r hr => ?_) fun e he => ?_
      · change TransferStmt.exec (.addItems effectiveItems)
          ((s.stockTransfers.put (env.uuid n 0) _).find? (env.uuid n 0)) = .ok r at hr
        rw [hwritten.find?_self] at hr
        obtain ⟨rfl, -⟩ := checked_ok hr
        have hall := hwritten.put (some { document with items := [] ++ effectiveItems })
        refine wp_insertStockTransactions (s := (s.put (.stockTransfer (env.uuid n 0))
          (some document)).put (.stockTransfer (env.uuid n 0)) _) hexact hlax
          (movementsFor_of env n fromId toId hpos) hroute ?_ ?_
          fun b x hb hkept hfits hx => ?_
        · refine hother.imp fun hok => ⟨⟨fun r hr => ?_, ?_, fun r hr => ?_⟩, ?_⟩
          · obtain ⟨_, _, j, rfl⟩ := mem_movementsFor env n fromId toId hr
            exact hok.movements_new (j + 1)
          · exact movementsFor_distinct env n fromId toId hok.ids_inj
          · obtain ⟨y, hy, -, rfl⟩ := mem_movementsFor env n fromId toId hr
            exact hok.quantity y (List.mem_filter.mp hy).1
          · rw [moved_movementsFor]
            exact ⟨hok.source_known, hok.target_known, ⟨_, hall.find?_self, rfl, rfl⟩, hok.range⟩
        · rw [moved_movementsFor]
          exact hshort
        · rw [moved_movementsFor] at hb hfits
          refine hQ _ ⟨⟨b, _, x, rfl⟩, hroute, hb, hkept, hfits, fun id hne => ?_, hx⟩
          exact hall.find?_ne (hne 0)
      · rcases hother with hok | hany
        · change TransferStmt.exec (.addItems effectiveItems)
            ((s.stockTransfers.put (env.uuid n 0) _).find? (env.uuid n 0)) = .error e at he
          rw [hwritten.find?_self] at he
          obtain ⟨y, hy, he⟩ := List.mem_flatMap.mp (checked_error he)
          rw [List.mem_cons, List.mem_singleton] at he
          have hrange := hok.quantity y (List.mem_filter.mp hy).1
          have hpos := hpos y hy
          simp [hrange, hpos] at he
        · exact hany e (exec_not_negative (.stockTransfer (env.uuid n 0)) _ _ he)
  · rcases hother with hok | hany
    · change TransferStmt.exec (.insert _) (s.stockTransfers.find? (env.uuid n 0)) = .error e at he
      rw [hok.transfer_new] at he
      simp [TransferStmt.exec, checked, hok.reason_fits, hok.route] at he
    · exact hany e (exec_not_negative (.stockTransfer (env.uuid n 0)) _ _ he)

end Rules

end Munavvar.StockTransfers
