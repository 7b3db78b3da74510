import Munavvar.FreeText
import Munavvar.Lines
import Munavvar.ListSummaries

/-!
# Searching for phone numbers

A query that reads like a phone number is searched among the digits of the phone
numbers of owners. Before, it has to pass a check that turns identifiers and
parts of them away. That check takes eight digits for a part of an identifier,
also with dashes between them, so numbers typed in this way are never searched.
-/

namespace Munavvar.PhoneSearch

open Munavvar.Database
open Munavvar.Like
open Munavvar.FreeText
open Munavvar.ListSummaries
open Munavvar.Lines (isSpace)

/-! ## Characters -/

/-- The digits from 0 to 9. -/
def isAsciiDigit (c : Char) : Bool := 48 ≤ c.toNat && c.toNat ≤ 57

/-- The digits of hexadecimal numbers in both cases. -/
def isHexDigit (c : Char) : Bool :=
  isAsciiDigit c || (65 ≤ c.toNat && c.toNat ≤ 70) || (97 ≤ c.toNat && c.toNat ≤ 102)

/-- The digits of all scripts, which grow in number with the versions of Unicode. -/
structure Unicode where
  /-- `str.isdigit` of a character. -/
  isDigit : Char → Bool
  /-- The digits of ASCII. -/
  ascii : ∀ c, c.toNat < 128 → isDigit c = isAsciiDigit c

/-- `str.strip`. -/
def strip (text : String) : String := String.ofList (Lines.strip text.toList)

/-! ## The checks -/

/-- The characters that separate the digits of a phone number. -/
def isSeparator (c : Char) : Bool := isSpace c || c ∈ ['+', '-', '(', ')']

/-- `extract_phone_digits`. -/
def extractPhoneDigits (q : List Char) : List Char := q.filter fun c => !isSeparator c

/-- `is_phone_like`. -/
def isPhoneLike (unicode : Unicode) (q : List Char) : Bool :=
  let digits := extractPhoneDigits q
  (digits ≠ [] && digits.all unicode.isDigit) && 4 ≤ digits.length

/-- `$` stands at the end of a text and before a newline there. -/
def atEnd (p : List Char → Bool) (text : List Char) : Bool :=
  p text || (text.getLast? = some '\n' && p text.dropLast)

/-- Groups of hexadecimal digits with a dash between them. -/
def hexGroups : List ℕ → List Char → Bool
  | [], text => text.isEmpty
  | [n], text => text.length = n && text.all isHexDigit
  | n :: ns, text =>
    (text.take n).length = n && (text.take n).all isHexDigit &&
      match text.drop n with
      | [] => false
      | c :: rest => c = '-' && hexGroups ns rest

/-- `_UUID_RE`. -/
def isUuid (q : List Char) : Bool := atEnd (hexGroups [8, 4, 4, 4, 12]) q

/-- `_LONG_HEX_RE`. -/
def isLongHex (compact : List Char) : Bool :=
  atEnd (fun text => 8 ≤ text.length && text.all isHexDigit) compact

/-- A text without the prefix of hexadecimal numbers. -/
def dropHexPrefix (compact : List Char) : List Char :=
  match compact with
  | c :: x :: rest => if c = '0' ∧ (x = 'x' ∨ x = 'X') then rest else compact
  | _ => compact

/-- `SearchTooShortError`. -/
def searchTooShort (length : ℕ) : Err :=
  .badRequest "Поисковый запрос слишком короткий. Минимальная длина — 2 символа." "SEARCH_TOO_SHORT"
    [("length", .int length), ("min_length", .int 2)]

/-- `SearchTooLongError`. -/
def searchTooLong (length : ℕ) : Err :=
  .badRequest "Поисковый запрос слишком длинный. Максимальная длина — 100 символов."
    "SEARCH_TOO_LONG" [("length", .int length), ("max_length", .int 100)]

/-- `SearchUuidNotAllowedError`. -/
def searchUuidNotAllowed : Err :=
  .badRequest ("В поиске запрещён UUID. Используйте структурные фильтры " ++
    "(inventory_id, transfer_id, product_id и т.д.).") "SEARCH_UUID_NOT_ALLOWED" []

/-- `normalize_q`. -/
def normalizeQ : Option String → Except Err (Option String)
  | none => .ok none
  | some raw =>
    let q := strip raw
    if q = "" then .ok none
    else if q.length < 2 then .error (searchTooShort q.length)
    else if 100 < q.length then .error (searchTooLong q.length)
    else
      let compact := dropHexPrefix (replace '-' [] q.toList)
      if isUuid q.toList || isLongHex compact then .error searchUuidNotAllowed else .ok (some q)

/-- `try_parse_int`. -/
def tryParseInt (q : List Char) : Option ℤ :=
  let isInt (text : List Char) : Bool :=
    1 ≤ text.length && text.length ≤ 9 && text.all isAsciiDigit
  if atEnd isInt q then
    some ((q.filter isAsciiDigit).foldl (fun n c => n * 10 + (c.toNat - 48 : ℕ)) (0 : ℕ) : ℕ)
  else none

/-! ## What the checks see of a phone number -/

variable {unicode : Unicode} {q : List Char}

theorem isHexDigit_of_ascii {c : Char} (h : isAsciiDigit c = true) : isHexDigit c = true := by
  unfold isHexDigit
  rw [h, Bool.true_or, Bool.true_or]

theorem isHexDigit_bounds {c : Char} (h : isHexDigit c = true) : 48 ≤ c.toNat ∧ c.toNat < 128 := by
  simp only [isHexDigit, isAsciiDigit, Bool.or_eq_true, Bool.and_eq_true, decide_eq_true_eq] at h
  omega

/-- No hexadecimal digit separates the digits of a phone number. -/
theorem isSeparator_hex {c : Char} (h : isHexDigit c = true) : isSeparator c = false := by
  have hbounds := isHexDigit_bounds h
  have hspace : isSpace c = false := by
    rw [Bool.eq_false_iff]
    intro hspace
    simp only [isSpace, Bool.or_eq_true, Bool.and_eq_true, decide_eq_true_eq, List.mem_cons,
      List.not_mem_nil, or_false] at hspace
    omega
  have hsign : c ∉ ['+', '-', '(', ')'] := by
    intro hsign
    have hsmall : ['+', '-', '(', ')'].all (fun x => x.toNat < 48) = true := by decide
    have hc := of_decide_eq_true (List.all_eq_true.mp hsmall c hsign)
    omega
  rw [isSeparator, hspace, decide_eq_false hsign, Bool.or_false]

/-- The characters of what reads like a phone number. -/
theorem isPhoneLike_chars (h : isPhoneLike unicode q = true) :
    ∀ c ∈ q, isSeparator c = true ∨ unicode.isDigit c = true := by
  simp only [isPhoneLike, Bool.and_eq_true, decide_eq_true_eq] at h
  intro c hc
  cases hseparator : isSeparator c with
  | true => exact .inl rfl
  | false =>
    have hdigit : c ∈ extractPhoneDigits q :=
      List.mem_filter.mpr ⟨hc, by rw [hseparator]; rfl⟩
    exact .inr (List.all_eq_true.mp h.1.2 c hdigit)

theorem isPhoneLike_length (h : isPhoneLike unicode q = true) : 4 ≤ q.length := by
  simp only [isPhoneLike, Bool.and_eq_true, decide_eq_true_eq] at h
  exact h.2.trans (List.length_filter_le _ q)

/-- The hexadecimal digits of what reads like a phone number are digits. -/
theorem ascii_of_hex (h : isPhoneLike unicode q = true) {c : Char} (hc : c ∈ q)
    (hhex : isHexDigit c = true) : isAsciiDigit c = true := by
  have hbounds := isHexDigit_bounds hhex
  rcases isPhoneLike_chars h c hc with hseparator | hdigit
  · rw [isSeparator_hex hhex] at hseparator
    cases hseparator
  · rw [← unicode.ascii c hbounds.2]
    exact hdigit

/-- To leave a character away is to replace it by nothing. -/
theorem replace_nil (old : Char) (text : List Char) :
    replace old [] text = text.filter (· ≠ old) := by
  unfold replace
  induction text with
  | nil => rfl
  | cons c text ih =>
    rw [List.flatMap_cons, ih]
    by_cases hc : c = old
    · simp [hc]
    · simp [hc]

/-- What reads like a phone number has no prefix of hexadecimal numbers. -/
theorem dropHexPrefix_phone (h : isPhoneLike unicode q = true) :
    dropHexPrefix (q.filter (· ≠ '-')) = q.filter (· ≠ '-') := by
  have hletter : ∀ x ∈ q.filter (· ≠ '-'), ¬ (x = 'x' ∨ x = 'X') := by
    intro x hx hletter
    have hascii : ['x', 'X'].all (fun x => isSeparator x = false ∧ x.toNat < 128 ∧
        isAsciiDigit x = false) = true := by decide
    have hx' : x ∈ ['x', 'X'] := by simpa using hletter
    obtain ⟨hseparator, hsmall, hdigit⟩ := of_decide_eq_true (List.all_eq_true.mp hascii x hx')
    rcases isPhoneLike_chars h x (List.mem_filter.mp hx).1 with hc | hc
    · rw [hseparator] at hc
      cases hc
    · rw [unicode.ascii x hsmall, hdigit] at hc
      cases hc
  unfold dropHexPrefix
  split
  · next c x rest heq =>
    rw [if_neg]
    rintro ⟨-, hx⟩
    exact hletter x (heq ▸ List.mem_cons_of_mem c List.mem_cons_self) hx
  · rfl

/-- Groups of hexadecimal digits have these digits and dashes, and no dash counts. -/
theorem hexGroups_spec (ns : List ℕ) {text : List Char} (h : hexGroups ns text = true) :
    (∀ c ∈ text, c ≠ '-' → isHexDigit c = true) ∧ ns.sum ≤ (text.filter (· ≠ '-')).length := by
  have hdash : isHexDigit '-' = false := by decide
  have hcount : ∀ l : List Char, l.all isHexDigit = true → l.filter (· ≠ '-') = l := by
    intro l hl
    rw [List.filter_eq_self]
    intro c hc
    have hhex := List.all_eq_true.mp hl c hc
    rw [decide_eq_true_eq]
    rintro rfl
    rw [hdash] at hhex
    cases hhex
  induction ns, text using hexGroups.induct with
  | case1 text =>
    rw [hexGroups, List.isEmpty_iff] at h
    subst h
    exact ⟨fun c hc => absurd hc List.not_mem_nil, le_rfl⟩
  | case2 n text =>
    simp only [hexGroups, Bool.and_eq_true, decide_eq_true_eq] at h
    rw [hcount text h.2, List.sum_singleton, h.1]
    exact ⟨fun c hc _ => List.all_eq_true.mp h.2 c hc, le_rfl⟩
  | case3 n ns text hne ih =>
    rw [hexGroups] at h
    · cases hdrop : text.drop n with
      | nil =>
        rw [hdrop, Bool.and_false] at h
        cases h
      | cons c rest =>
        rw [hdrop] at h
        simp only [Bool.and_eq_true, decide_eq_true_eq] at h
        obtain ⟨⟨hlength, hhex⟩, rfl, hrest⟩ := h
        obtain ⟨hchars, hsum⟩ := ih rest hrest
        have hsplit : text = text.take n ++ '-' :: rest := by
          rw [← hdrop, List.take_append_drop]
        constructor
        · intro c hc hne
          rw [hsplit] at hc
          rcases List.mem_append.mp hc with hc | hc
          · exact List.all_eq_true.mp hhex c hc
          · rcases List.mem_cons.mp hc with rfl | hc
            · exact absurd rfl hne
            · exact hchars c hc hne
        · have hrest' : ('-' :: rest).filter (· ≠ '-') = rest.filter (· ≠ '-') :=
            List.filter_cons_of_neg (by simp)
          rw [hsplit, List.filter_append, hcount _ hhex, List.length_append, hlength, hrest',
            List.sum_cons]
          exact Nat.add_le_add_left hsum n
    · exact hne

/-! ## Which phone numbers pass -/

/-- Nothing but at least eight digits of ASCII when dashes are left away, with a
newline behind them or not. -/
def BareDigits (q : List Char) : Prop :=
  ∃ digits : List Char, 8 ≤ digits.length ∧ (∀ c ∈ digits, isAsciiDigit c = true) ∧
    (q.filter (· ≠ '-') = digits ∨ q.filter (· ≠ '-') = digits ++ ['\n'])

theorem atEnd_iff (p : List Char → Bool) (text : List Char) :
    atEnd p text = true ↔ p text = true ∨ ∃ front, text = front ++ ['\n'] ∧ p front = true := by
  simp only [atEnd, Bool.or_eq_true, Bool.and_eq_true, decide_eq_true_eq]
  refine or_congr_right ⟨?_, ?_⟩
  · rintro ⟨hlast, hfront⟩
    exact ⟨text.dropLast, (List.dropLast_append_getLast? '\n' hlast).symm, hfront⟩
  · rintro ⟨front, rfl, hfront⟩
    rw [List.getLast?_concat, List.dropLast_concat]
    exact ⟨rfl, hfront⟩

/-- A phone number is long in hexadecimal digits exactly if it is bare. -/
theorem isLongHex_iff (h : isPhoneLike unicode q = true) :
    isLongHex (q.filter (· ≠ '-')) = true ↔ BareDigits q := by
  rw [isLongHex, atEnd_iff]
  simp only [Bool.and_eq_true, decide_eq_true_eq, List.all_eq_true]
  constructor
  · rintro (⟨hlength, hhex⟩ | ⟨front, hfront, hlength, hhex⟩)
    · refine ⟨_, hlength, fun c hc => ?_, .inl rfl⟩
      exact ascii_of_hex h (List.mem_filter.mp hc).1 (hhex c hc)
    · refine ⟨front, hlength, fun c hc => ?_, .inr hfront⟩
      have hmem : c ∈ q.filter (· ≠ '-') := by
        rw [hfront]
        exact List.mem_append_left _ hc
      exact ascii_of_hex h (List.mem_filter.mp hmem).1 (hhex c hc)
  · rintro ⟨digits, hlength, hascii, heq | heq⟩
    · rw [heq]
      exact .inl ⟨hlength, fun c hc => isHexDigit_of_ascii (hascii c hc)⟩
    · exact .inr ⟨digits, heq, hlength, fun c hc => isHexDigit_of_ascii (hascii c hc)⟩

/-- A phone number of the form of an identifier is bare. -/
theorem bareDigits_of_isUuid (h : isPhoneLike unicode q = true) (huuid : isUuid q = true) :
    BareDigits q := by
  rw [isUuid, atEnd_iff] at huuid
  rcases huuid with hgroups | ⟨front, rfl, hgroups⟩
  · obtain ⟨hchars, hsum⟩ := hexGroups_spec _ hgroups
    refine ⟨q.filter (· ≠ '-'), le_trans (by decide) hsum, fun c hc => ?_, .inl rfl⟩
    obtain ⟨hmem, hne⟩ := List.mem_filter.mp hc
    exact ascii_of_hex h hmem (hchars c hmem (of_decide_eq_true hne))
  · obtain ⟨hchars, hsum⟩ := hexGroups_spec _ hgroups
    refine ⟨front.filter (· ≠ '-'), le_trans (by decide) hsum, fun c hc => ?_, .inr ?_⟩
    · obtain ⟨hmem, hne⟩ := List.mem_filter.mp hc
      exact ascii_of_hex h (List.mem_append_left _ hmem) (hchars c hmem (of_decide_eq_true hne))
    · rw [List.filter_append]
      rfl

/-- What reads like a phone number and is not too long is accepted in its
trimmed form, unless it is bare. -/
theorem phone_query_accepted_iff (unicode : Unicode) (raw : String)
    (hphone : isPhoneLike unicode (strip raw).toList = true) (hlength : (strip raw).length ≤ 100) :
    normalizeQ (some raw) = .ok (some (strip raw)) ↔ ¬ BareDigits (strip raw).toList := by
  have hfour := isPhoneLike_length hphone
  rw [String.length_toList] at hfour
  have hempty : strip raw ≠ "" := by
    intro hempty
    rw [hempty] at hfour
    exact absurd hfour (by decide)
  unfold normalizeQ
  dsimp only
  rw [if_neg hempty, if_neg (by omega), if_neg (by omega), replace_nil, dropHexPrefix_phone hphone]
  by_cases hbare : BareDigits (strip raw).toList
  · rw [(isLongHex_iff hphone).mpr hbare, Bool.or_true, if_pos rfl]
    exact iff_of_false (by simp) (not_not_intro hbare)
  · have huuid : isUuid (strip raw).toList = false :=
      Bool.eq_false_iff.mpr fun huuid => hbare (bareDigits_of_isUuid hphone huuid)
    have hlong : isLongHex ((strip raw).toList.filter (· ≠ '-')) = false :=
      Bool.eq_false_iff.mpr fun hlong => hbare ((isLongHex_iff hphone).mp hlong)
    rw [huuid, hlong, Bool.or_false, if_neg Bool.false_ne_true]
    exact iff_of_true rfl hbare

/-! ## What the ledger finds -/

/-- The helpers of the ledger's free text search; `localPhones` are the local
identities of an inventory's owner. -/
def ledgerSearch (unicode : Unicode) (fold : Char → Char) (localPhones : Inventory → List String) :
    TextSearch where
  strip := strip
  ilike column q := ilike fold column (ilikePattern q) = some true
  isPhoneLike q := isPhoneLike unicode q.toList
  tryParseInt q := tryParseInt q.toList
  ownerPhoneContains i q := (localPhones i).any fun phone =>
    like signs ('%' :: (extractPhoneDigits q.toList ++ ['%'])) (phone.toList.filter isAsciiDigit) =
      some true

section Fields

variable (unicode : Unicode) (fold : Char → Char) (localPhones : Inventory → List String)

theorem ledgerSearch_strip (text : String) :
    (ledgerSearch unicode fold localPhones).strip text = strip text := by
  unfold ledgerSearch
  dsimp only

theorem ledgerSearch_isPhoneLike (text : String) :
    (ledgerSearch unicode fold localPhones).isPhoneLike text = isPhoneLike unicode text.toList := by
  unfold ledgerSearch
  dsimp only

theorem ledgerSearch_ownerPhoneContains (i : Inventory) (text : String) :
    (ledgerSearch unicode fold localPhones).ownerPhoneContains i text =
      (localPhones i).any fun phone => like signs ('%' :: (extractPhoneDigits text.toList ++ ['%']))
        (phone.toList.filter isAsciiDigit) = some true := by
  unfold ledgerSearch
  dsimp only

end Fields

/-- The digits of a phone number need no quotation in a pattern. -/
theorem contains_phoneDigits (h : isPhoneLike unicode q = true) :
    '%' :: (extractPhoneDigits q ++ ['%']) = signs.contains (extractPhoneDigits q) := by
  have hplain : ∀ c ∈ extractPhoneDigits q, signs.quoted c = [c] := by
    intro c hc
    obtain ⟨hmem, hseparator⟩ := List.mem_filter.mp hc
    unfold Signs.quoted
    rw [if_neg]
    intro hsign
    have hascii : ['%', '_', '\\'].all
        (fun x => x.toNat < 128 ∧ isAsciiDigit x = false) = true := by decide
    have hc' : c ∈ ['%', '_', '\\'] := by simpa [signs] using hsign
    obtain ⟨hsmall, hdigit⟩ := of_decide_eq_true (List.all_eq_true.mp hascii c hc')
    rcases isPhoneLike_chars h c hmem with hc | hc
    · rw [hc] at hseparator
      cases hseparator
    · rw [unicode.ascii c hsmall, hdigit] at hc
      cases hc
  rw [Signs.contains, List.flatMap_congr hplain, List.flatMap_singleton']
  rfl

/-- A query that reads like a phone number is met by a movement with an owner's number. -/
theorem admits_phone {search : TextSearch} {f : StockTransactionFilter} {j : JoinedMovement}
    {text : String} (hq : f.q = some text)
    (hphone : search.isPhoneLike (search.strip text) = true)
    (hrest : { f with q := none }.admits search j = true)
    (howner : (search.ownerPhoneContains j.fromInv (search.strip text) ||
      search.ownerPhoneContains j.toInv (search.strip text)) = true) :
    f.admits search j = true := by
  unfold ListSummaries.StockTransactionFilter.admits at hrest ⊢
  rw [Bool.and_eq_true] at hrest ⊢
  refine ⟨hrest.1, ?_⟩
  rw [hq, unset, Option.all_some]
  dsimp only
  rw [hphone, howner, Bool.true_and, Bool.or_true]

/-- A movement whose other conditions are met is found by every phone number that
passes the checks and whose digits an owner's number contains. -/
theorem phone_found {fold : Char → Char} {localPhones : Inventory → List String}
    {f : StockTransactionFilter} {j : JoinedMovement} {text : String} (hq : f.q = some text)
    (hphone : isPhoneLike unicode (strip text).toList = true)
    (hrest : { f with q := none }.admits (ledgerSearch unicode fold localPhones) j = true)
    (howner : ∃ phone ∈ localPhones j.fromInv ++ localPhones j.toInv,
      extractPhoneDigits (strip text).toList <:+: phone.toList.filter isAsciiDigit) :
    f.admits (ledgerSearch unicode fold localPhones) j = true := by
  obtain ⟨phone, hmem, hinfix⟩ := howner
  have hlike : like signs ('%' :: (extractPhoneDigits (strip text).toList ++ ['%']))
      (phone.toList.filter isAsciiDigit) = some true := by
    rw [contains_phoneDigits hphone, like_contains, decide_eq_true hinfix]
  have hcontains : ∀ i, phone ∈ localPhones i →
      (ledgerSearch unicode fold localPhones).ownerPhoneContains i (strip text) = true := by
    intro i hi
    rw [ledgerSearch_ownerPhoneContains]
    exact List.any_eq_true.mpr ⟨phone, hi, decide_eq_true hlike⟩
  refine admits_phone hq ?_ hrest ?_
  · rw [ledgerSearch_strip, ledgerSearch_isPhoneLike]
    exact hphone
  · rw [ledgerSearch_strip, Bool.or_eq_true]
    exact (List.mem_append.mp hmem).imp (hcontains j.fromInv) (hcontains j.toInv)

/-- The digits of ASCII alone. -/
def asciiDigits : Unicode := ⟨isAsciiDigit, fun _ _ => rfl⟩

/-- A phone number without separators is turned away as a part of an identifier. -/
theorem bare_phone_rejected :
    ¬ ∀ (unicode : Unicode) (raw : String), isPhoneLike unicode (strip raw).toList = true →
      (strip raw).length ≤ 100 → normalizeQ (some raw) = .ok (some (strip raw)) := by
  intro hclaim
  have haccepted := hclaim asciiDigits "998901234567" (by decide +kernel) (by decide +kernel)
  have hrejected : normalizeQ (some "998901234567") = .error searchUuidNotAllowed := by decide +kernel
  rw [hrejected] at haccepted
  cases haccepted

/-- The same number with its separators passes. -/
theorem phone_query_accepted_sample :
    normalizeQ (some " +998 (90) 123-45-67") = .ok (some (strip " +998 (90) 123-45-67")) ↔
      ¬ BareDigits (strip " +998 (90) 123-45-67").toList :=
  phone_query_accepted_iff asciiDigits " +998 (90) 123-45-67" (by decide +kernel) (by decide +kernel)

end Munavvar.PhoneSearch
