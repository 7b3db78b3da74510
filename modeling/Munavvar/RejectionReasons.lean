import Munavvar.Lines
import Munavvar.PaymentDecision

/-!
# Reasons of rejections

A rejection appends its reason to the reason of the payment, both of which may
fill the column. The column has room for 255 characters, cuts off spaces beyond
them and refuses everything else. Then the payment keeps waiting.
-/

namespace Munavvar.RejectionReasons

open Munavvar.KeyedTable
open Munavvar.Transaction
open Munavvar.Transaction.Prog
open Munavvar.Database
open Munavvar.DoubleEntry
open Munavvar.FinancialLedger
open Munavvar.PaymentDecision

/-! ## Text columns -/

/-- The character that no text of the database may have. -/
def nul : Char := Char.ofNat 0

/-- What a `VARCHAR` column makes of a text: spaces beyond its end are cut off,
and a text that still does not fit is refused. -/
def columnText (limit : ℕ) (text : List Char) : Option (List Char) :=
  if nul ∈ text then none
  else if (text.drop limit).all (· = ' ') then some (text.take limit)
  else none

/-- Only such elements stand beyond a position if the others end before it. -/
theorem all_drop_iff {α : Type} (p : α → Bool) (l : List α) (n : ℕ) :
    (l.drop n).all p = true ↔ (l.rdropWhile p).length ≤ n := by
  induction l using List.reverseRecOn with
  | nil => simp
  | append_singleton l a ih =>
    rw [List.rdropWhile_concat]
    split_ifs with ha
    · rw [← ih, List.drop_append, List.all_append, Bool.and_eq_true]
      refine and_iff_left ?_
      cases n - l.length with
      | zero => simp [ha]
      | succ m => simp
    · constructor
      · intro hall
        by_contra hlong
        have hlast : a ∈ (l ++ [a]).drop n := by
          have hlength : (l ++ [a]).length = l.length + 1 := by simp
          rw [List.drop_append_of_le_length (by omega)]
          exact List.mem_append_right _ (List.mem_singleton_self a)
        exact ha (List.all_eq_true.mp hall a hlast)
      · intro hshort
        rw [List.drop_eq_nil_of_le hshort]
        rfl

theorem length_columnText {limit : ℕ} {text stored : List Char}
    (h : columnText limit text = some stored) : stored.length ≤ limit := by
  unfold columnText at h
  split_ifs at h
  cases h
  exact List.length_take_le limit text

theorem columnText_isSome_iff (limit : ℕ) (text : List Char) :
    (columnText limit text).isSome = true ↔
      nul ∉ text ∧ (text.rdropWhile (· = ' ')).length ≤ limit := by
  rw [← all_drop_iff]
  unfold columnText
  split_ifs with hnul hspaces
  · simp [hnul]
  · simp only [Option.isSome_some, hspaces, true_iff]
    exact ⟨hnul, trivial⟩
  · simp [hspaces]

/-! ## The endpoint -/

/-- The reason in the body of a request. -/
structure RejectionReason where
  /-- The text. -/
  text : String
  /-- The endpoint admits 3 to 255 characters. -/
  admitted : 3 ≤ text.length ∧ text.length ≤ 255

/-- What stands between the two reasons. -/
def separator : List Char :=
  [' ', '|', ' ', 'О', 'т', 'к', 'л', 'о', 'н', 'е', 'н', 'о', ':', ' ']

/-- `f"{txn.reason} | Отклонено: {reason}"`. -/
def composed (stored reason : String) : List Char :=
  stored.toList ++ (separator ++ reason.toList)

/-- `reject_transaction` of the endpoint. The `UPDATE` raises a database error
for a reason that its column refuses. -/
def rejectTransaction (transactionId verifiedById : Uuid) (reason : RejectionReason) : Uow Unit := do
  let txn ← forUpdate (.transaction transactionId)
  let txn ← orRaise txn (.transactionNotFound transactionId)
  raiseIf (txn.status ≠ .pending) (.invalidTransactionStatus transactionId txn.status)
  let text ← orRaise (columnText 255 (composed txn.reason reason.text))
    (.stringTooLong "transactions.reason")
  updateTransaction transactionId
    { status := some .rejected
      verifiedById := some verifiedById
      reason := some (String.ofList text) }

/-- A payment that was rejected, with a reason that fits its column. -/
structure Rejected (s : Db) (id verifiedById : Uuid) (row : FinancialTransaction) : Prop where
  /-- Only status, verifier and reason have changed. -/
  found : ∃ text : String, text.length ≤ 255 ∧ s.transactions.find? id =
    some { row with status := .rejected, verifiedById := some verifiedById, reason := text }

/-- The characters that a rejection adds, without spaces at the end. -/
def addedLength (reason : RejectionReason) : ℕ :=
  ((separator ++ reason.text.toList).rdropWhile (· = ' ')).length

/-- The reason of a rejection finds room behind the stored one. -/
def HasRoom (stored : String) (reason : RejectionReason) : Prop :=
  stored.length + addedLength reason ≤ 255 ∧ nul ∉ stored.toList ∧ nul ∉ reason.text.toList

/-! ## When a rejection succeeds -/

theorem separator_not_blank (l : List Char) : (separator ++ l).rdropWhile (· = ' ') ≠ [] := by
  intro hnil
  have hblank := List.rdropWhile_eq_nil_iff.mp hnil
  have hcolon : ':' ∈ separator ++ l := List.mem_append_left l (by decide)
  exact absurd (hblank ':' hcolon) (by decide)

/-- The column takes the composed text exactly if there is room for it. -/
theorem composed_isSome_iff (stored : String) (reason : RejectionReason) :
    (columnText 255 (composed stored reason.text)).isSome = true ↔ HasRoom stored reason := by
  have hseparator : nul ∉ separator := by decide
  rw [columnText_isSome_iff, composed, Lines.rdropWhile_append,
    if_neg (separator_not_blank _), List.length_append, String.length_toList, List.mem_append,
    List.mem_append, HasRoom, addedLength]
  constructor
  · rintro ⟨hnul, hlength⟩
    exact ⟨hlength, fun h => hnul (.inl h), fun h => hnul (.inr (.inr h))⟩
  · rintro ⟨hlength, hstored, hreason⟩
    refine ⟨?_, hlength⟩
    rintro (h | h | h)
    · exact hstored h
    · exact hseparator h
    · exact hreason h

/-- A reason that does not end with a space adds all of its characters. -/
theorem addedLength_eq {reason : RejectionReason} (h : reason.text.toList.getLast? ≠ some ' ') :
    addedLength reason = 14 + reason.text.length := by
  have hself : (separator ++ reason.text.toList).rdropWhile (· = ' ') =
      separator ++ reason.text.toList := by
    rw [List.rdropWhile_eq_self_iff]
    intro hne hlast
    have hspace : (separator ++ reason.text.toList).getLast? = some ' ' := by
      rw [List.getLast?_eq_some_getLast hne, of_decide_eq_true hlast]
    have hnil : reason.text.toList ≠ [] := by
      intro hnil
      have hlength := reason.admitted.1
      rw [← String.length_toList, hnil] at hlength
      exact absurd hlength (by decide)
    rw [List.getLast?_append_of_ne_nil _ hnil] at hspace
    exact h hspace
  rw [addedLength, hself, List.length_append, String.length_toList]
  rfl

section Calls

variable {s : Db} {id : Uuid} {row : FinancialTransaction} {verifiedById : Uuid}
  {reason : RejectionReason}

/-- Where there is room, the payment is rejected. -/
theorem wp_rejectTransaction (h : PendingPayment s id row) (hroom : HasRoom row.reason reason) :
    wp Regime.serial (rejectTransaction id verifiedById reason)
      (fun _ s' => Rejected s' id verifiedById row) (fun _ => False) s := by
  obtain ⟨text, htext⟩ := Option.isSome_iff_exists.mp ((composed_isSome_iff _ _).mpr hroom)
  have hlength : (String.ofList text).length ≤ 255 := by
    rw [String.length_ofList]
    exact length_columnText htext
  have hlocked : schema.get s (.transaction id) = some row := h.found
  rw [rejectTransaction, wp_bind, wp_locked, hlocked, wp_bind, wp_orRaise]
  refine ⟨fun hnone => absurd hnone (by simp), fun txn htxn => ?_⟩
  cases htxn
  rw [wp_bind, wp_raiseIf]
  refine ⟨fun hdecided => absurd h.pending hdecided, fun _ => ?_⟩
  rw [wp_bind, wp_orRaise]
  refine ⟨fun hnone => absurd (htext.symm.trans hnone) (by simp), fun text' htext' => ?_⟩
  cases htext.symm.trans htext'
  refine wp_updatePending h rfl ?_ (fun hdiff _ => ?_) fun s' hfound _ => ?_
  · have hvalid := h.valid
    simp only [FinancialTransaction.constraints, List.forall_mem_cons] at hvalid ⊢
    exact ⟨hvalid.1, decide_eq_true hlength, hvalid.2.2⟩
  · refine absurd ?_ hdiff
    simp only [balanceDiff, h.pending]
    rfl
  · exact ⟨⟨String.ofList text, hlength, hfound⟩⟩

/-- Where there is none, the database refuses the reason. -/
theorem run_rejectTransaction_error (h : PendingPayment s id row)
    (hroom : ¬ HasRoom row.reason reason) :
    (rejectTransaction id verifiedById reason).run s =
      .error (.stringTooLong "transactions.reason") := by
  have hnone : columnText 255 (composed row.reason reason.text) = none := by
    rw [← composed_isSome_iff, Option.isSome_iff_ne_none, not_not] at hroom
    exact hroom
  have hlocked : schema.get s (.transaction id) = some row := h.found
  have hwp : wp Regime.serial (rejectTransaction id verifiedById reason) (fun _ _ => False)
      (fun e => e = .stringTooLong "transactions.reason") s := by
    rw [rejectTransaction, wp_bind, wp_locked, hlocked, wp_bind, wp_orRaise]
    refine ⟨fun hnone => absurd hnone (by simp), fun txn htxn => ?_⟩
    cases htxn
    rw [wp_bind, wp_raiseIf]
    refine ⟨fun hdecided => absurd h.pending hdecided, fun _ => ?_⟩
    rw [wp_bind, wp_orRaise]
    exact ⟨fun _ => rfl, fun text htext => absurd (hnone.symm.trans htext) (by simp)⟩
  have hrun := (wp_serial_iff _ _ _ _).mp hwp
  split at hrun
  · exact hrun.elim
  · next e he => rw [he, hrun]

/-- A rejection without room leaves everything as it was: the payment waits. -/
theorem serve_rejectTransaction (h : PendingPayment s id row) (hroom : ¬ HasRoom row.reason reason) :
    serve (rejectTransaction id verifiedById reason) s = s := by
  rw [serve, run_rejectTransaction_error h hroom]

/-- A pending payment can be rejected exactly with the reasons that find room
behind its own. -/
theorem rejection_succeeds_iff (verifiedById : Uuid) (reason : RejectionReason)
    (h : PendingPayment s id row) :
    (∃ s', (rejectTransaction id verifiedById reason).run s = .ok ((), s') ∧
      Rejected s' id verifiedById row) ↔ HasRoom row.reason reason := by
  constructor
  · rintro ⟨s', hrun, hrejected⟩
    by_contra hroom
    rw [run_rejectTransaction_error h hroom] at hrun
    cases hrun
  · intro hroom
    obtain ⟨a, s', hrun, hrejected⟩ := run_of_wp (wp_rejectTransaction h hroom)
    exact ⟨s', hrun, hrejected⟩

/-- Short reasons are written as they are composed. -/
theorem columnText_short {limit : ℕ} {text : List Char} (hnul : nul ∉ text)
    (h : text.length ≤ limit) : columnText limit text = some text := by
  unfold columnText
  rw [if_neg hnul, List.drop_eq_nil_of_le h, List.all_nil, if_pos rfl, List.take_of_length_le h]

/-- With short reasons the call of an accountant does what the endpoint does. -/
theorem run_rejectTransaction_eq (h : PendingPayment s id row)
    (hshort : row.reason.length + 14 + reason.text.length ≤ 255)
    (hnul : nul ∉ row.reason.toList ∧ nul ∉ reason.text.toList) :
    (rejectTransaction id verifiedById reason).run s =
      (PaymentDecision.rejectTransaction id verifiedById (some reason.text)).run s := by
  have hlocked : schema.get s (.transaction id) = some row := h.found
  have htext : columnText 255 (composed row.reason reason.text) =
      some (composed row.reason reason.text) := by
    apply columnText_short
    · have hseparator : nul ∉ separator := by decide
      rw [composed, List.mem_append, List.mem_append]
      rintro (h | h | h)
      · exact hnul.1 h
      · exact hseparator h
      · exact hnul.2 h
    · have hseparator : separator.length = 14 := rfl
      rw [composed, List.length_append, List.length_append, String.length_toList,
        String.length_toList, hseparator]
      omega
  have hreason : (some reason.text).filter (· ≠ "") = some reason.text := by
    have hne : reason.text ≠ "" := by
      intro hempty
      have hlength := reason.admitted.1
      rw [hempty] at hlength
      exact absurd hlength (by decide)
    simp [hne]
  have hwritten : String.ofList (composed row.reason reason.text) =
      row.reason ++ " | Отклонено: " ++ reason.text := by
    have hseparator : separator = " | Отклонено: ".toList := by decide
    rw [composed, hseparator, ← String.toList_append, ← String.toList_append, String.ofList_toList,
      String.append_assoc]
  change (orRaise (S := schema) (schema.get s (.transaction id)) (.transactionNotFound id) >>= _).run s =
    (orRaise (S := schema) (schema.get s (.transaction id)) (.transactionNotFound id) >>= _).run s
  rw [hlocked]
  change (raiseIf (S := schema) (row.status ≠ .pending) _ >>= fun _ =>
      orRaise (columnText 255 (composed row.reason reason.text)) _ >>= _).run s =
    (raiseIf (S := schema) (row.status ≠ .pending) _ >>= fun _ =>
      updateTransaction id (rejection verifiedById (some reason.text) row)).run s
  rw [htext, rejection, hreason, Option.map_some, ← hwritten]
  rfl

end Calls

/-! ## A long reason -/

/-- A payment whose reason leaves five characters of the column. -/
def longPayment : FinancialTransaction :=
  ⟨2, 3, none, none, 50, .pending, String.ofList (List.replicate 250 'x'), 0, true⟩

/-- The payment waits. -/
def longDb : Db :=
  { AccountConservation.sampleDb with transactions := ⟨[(12, longPayment)], by decide⟩ }

/-- A short reason to reject a payment. -/
def wrongAccount : RejectionReason := ⟨"wrong account", by decide⟩

theorem length_longPayment : longPayment.reason.length = 250 := by
  rw [longPayment, String.length_ofList, List.length_replicate]

theorem longDb_pending : PendingPayment longDb 12 longPayment := by
  have hfits : fits 255 (some longPayment.reason) = true := by
    rw [fits, Option.all_some, length_longPayment]
    rfl
  constructor
  · rfl
  · rfl
  · simp only [FinancialTransaction.constraints, List.forall_mem_cons]
    exact ⟨by decide, hfits, by decide, by decide, fun c hc => absurd hc List.not_mem_nil⟩
  · rfl
  · rfl

/-- A payment with a long reason cannot be rejected. -/
theorem long_payment_not_rejected :
    ¬ ∀ (s : Db) (id : Uuid) (row : FinancialTransaction) (verifiedById : Uuid)
      (reason : RejectionReason), PendingPayment s id row →
      ∃ s', (rejectTransaction id verifiedById reason).run s = .ok ((), s') ∧
        Rejected s' id verifiedById row := by
  intro hclaim
  obtain ⟨s', hrun, hrejected⟩ := hclaim longDb 12 longPayment 5 wrongAccount longDb_pending
  have hadded : addedLength wrongAccount = 27 := addedLength_eq (by decide +kernel)
  have hroom : ¬ HasRoom longPayment.reason wrongAccount := by
    intro hroom
    have hlength := hroom.1
    rw [hadded, length_longPayment] at hlength
    exact absurd hlength (by decide)
  rw [run_rejectTransaction_error longDb_pending hroom] at hrun
  cases hrun

/-- A payment with a short reason can be rejected. -/
theorem rejection_succeeds_sample :
    (∃ s', (rejectTransaction 12 5 wrongAccount).run PaymentDecision.sampleDb = .ok ((), s') ∧
      Rejected s' 12 5 samplePayment) ↔ HasRoom samplePayment.reason wrongAccount :=
  rejection_succeeds_iff 5 wrongAccount sampleDb_pending

end Munavvar.RejectionReasons
