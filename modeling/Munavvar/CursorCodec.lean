import Munavvar.Pagination

/-!
# The cursor codec

The codec of cursors on everything that its types admit: times with any offset
or with none, numbers of any length and strings with surrogates. A layer that
cannot go on raises an exception of its own class, and the reader turns all of
them into one.
-/

namespace Munavvar.CursorCodec

open Munavvar.Database
open Munavvar.Numerals
open Munavvar.Pagination (uuidText not_mem_uuidText readUuid readUuid_uuidText readInt readDigits
  fraction fromUTF8?_toUTF8 daysInMonth_le)

/-! ## Strings and exceptions -/

/-- A character of a Python string, which may be a surrogate. -/
abbrev CodePoint : Type := Fin 0x110000

/-- The scalar value of a code point. -/
def CodePoint.char? (c : CodePoint) : Option Char :=
  if h : c.val.isValidChar then some (Char.ofNatAux c.val h) else none

/-- The code point of a scalar value. -/
def CodePoint.ofChar (c : Char) : CodePoint :=
  ⟨c.toNat, by
    rcases c.valid with h | h
    · exact Nat.lt_trans h (by decide)
    · exact h.2⟩

/-- The exceptions that the codec meets. -/
inductive PyException
  | valueError
  | unicodeEncodeError
  | unicodeDecodeError
  | binasciiError
  | typeError
  | overflowError
  | cursorInvalidError
  deriving DecidableEq, Repr

/-- `isinstance` for the classes that the codec handles. -/
def PyException.isInstance : PyException → PyException → Bool
  | .unicodeEncodeError, .valueError | .unicodeDecodeError, .valueError
  | .binasciiError, .valueError => true
  | e, handled => e = handled

/-- `try`, where the exceptions of some classes are raised as another one. -/
def handling {α : Type} (classes : List PyException) (raised : PyException)
    (body : Except PyException α) : Except PyException α :=
  match body with
  | .ok a => .ok a
  | .error e => if classes.any e.isInstance then .error raised else .error e

/-- Raise an exception for a missing value. -/
def orError {α : Type} (e : PyException) : Option α → Except PyException α
  | some a => .ok a
  | none => .error e

/-- The characters of a string that UTF-8 can write. -/
def encodable (text : List CodePoint) : Except PyException (List Char) :=
  orError .unicodeEncodeError (text.mapM CodePoint.char?)

/-! ## Times -/

/-- `timedelta`, as an offset from UTC: less than a day. -/
structure Offset where
  /-- In microseconds. -/
  microseconds : ℤ
  /-- Strictly between a day back and a day ahead. -/
  bounded : -86400000000 < microseconds ∧ microseconds < 86400000000
  deriving DecidableEq, Repr

/-- A `datetime` that is naive or has a fixed offset. -/
structure DateTime where
  /-- Date and time of day. -/
  wall : Pagination.DateTime
  /-- `utcoffset()`, if it is aware. -/
  offset : Option Offset
  deriving DecidableEq, Repr

/-- The microseconds, which are left away when there are none. -/
def fractionText (microsecond : ℕ) : List Char :=
  if microsecond = 0 then [] else '.' :: write 10 6 microsecond

/-- The seconds of an offset, which are left away when there are none. -/
def secondsText (second microsecond : ℕ) : List Char :=
  if second = 0 ∧ microsecond = 0 then []
  else ':' :: (write 10 2 second ++ fractionText microsecond)

/-- The sign of an offset. -/
def signText (negative : Bool) : Char := if negative then '-' else '+'

/-- The offset in `isoformat`. -/
def offsetText : Option Offset → List Char
  | none => []
  | some o =>
    let n := o.microseconds.natAbs
    signText (o.microseconds < 0) :: (write 10 2 (n / 3600000000) ++ ':' ::
      (write 10 2 (n / 60000000 % 60) ++ secondsText (n / 1000000 % 60) (n % 1000000)))

/-- `isoformat`. -/
def isoformat (t : DateTime) : List Char :=
  write 10 4 t.wall.year ++ '-' :: (write 10 2 t.wall.month ++ '-' :: (write 10 2 t.wall.day ++ 'T' ::
    (write 10 2 t.wall.hour ++ ':' :: (write 10 2 t.wall.minute ++ ':' ::
      (write 10 2 t.wall.second ++ (fractionText t.wall.microsecond ++ offsetText t.offset))))))

/-- The texts that the standard library reads besides those that it writes.
Where it reads none it raises `ValueError`. -/
structure OtherForms where
  /-- The other forms of a time of ISO 8601. -/
  isoformat : List Char → Option DateTime
  /-- The other forms of an identifier. -/
  uuid : List Char → Option Uuid
  /-- The other forms of a number. -/
  int : List Char → Option ℤ

/-- The other forms of identifiers and numbers. -/
def OtherForms.plain (std : OtherForms) : Pagination.OtherForms := ⟨fun _ => none, std.uuid, std.int⟩

/-- An offset of a sign and a number of microseconds. -/
def Offset.ofFields (negative : Bool) (n : ℕ) : Option Offset :=
  if h : n < 86400000000 then
    some ⟨if negative then -(n : ℤ) else n, by cases negative <;> simp <;> omega⟩
  else none

/-- Whether a sign is negative. -/
def readSign (sign : Char) : Option Bool :=
  if sign = '-' then some true else if sign = '+' then some false else none

/-- The seconds of an offset with their fraction. -/
def readSeconds (text : List Char) : Option (ℕ × ℕ) :=
  match text with
  | [] => some (0, 0)
  | c :: rest => do
    let text ← literal ':' (c :: rest)
    let (second, text) ← field 10 2 text
    let (microsecond, text) ← fraction text
    if text = [] then some (second, microsecond) else none

/-- The offset behind a time. -/
def readOffset (text : List Char) : Option (Option Offset) :=
  match text with
  | [] => some none
  | sign :: rest => do
    let negative ← readSign sign
    let (hour, text) ← field 10 2 rest
    let text ← literal ':' text
    let (minute, text) ← field 10 2 text
    let (second, microsecond) ← readSeconds text
    (Offset.ofFields negative (((hour * 60 + minute) * 60 + second) * 1000000 + microsecond)).map some

/-- Read the form that `isoformat` writes. -/
def readIsoformat (text : List Char) : Option DateTime := do
  let (year, text) ← field 10 4 text
  let text ← literal '-' text
  let (month, text) ← field 10 2 text
  let text ← literal '-' text
  let (day, text) ← field 10 2 text
  let text ← literal 'T' text
  let (hour, text) ← field 10 2 text
  let text ← literal ':' text
  let (minute, text) ← field 10 2 text
  let text ← literal ':' text
  let (second, text) ← field 10 2 text
  let (microsecond, text) ← fraction text
  let wall ← Pagination.DateTime.ofFields year month day hour minute second microsecond
  let offset ← readOffset text
  some ⟨wall, offset⟩

/-- `datetime.fromisoformat`. -/
def fromisoformat (std : OtherForms) (text : List Char) : Except PyException DateTime :=
  orError .valueError ((readIsoformat text).or (std.isoformat text))

/-! ## Tokens -/

/-- `SortValue`, where `bool` is a subclass of `int`. -/
inductive SortValue
  | dt (t : DateTime)
  | bool (b : Bool)
  | int (n : ℤ)
  | str (text : List CodePoint)
  deriving DecidableEq, Repr

/-- `kind` in `encode_cursor`. -/
def SortValue.kind : SortValue → List Char
  | .dt _ => ['d', 't']
  | .bool _ => ['i']
  | .int _ => ['i']
  | .str _ => ['s']

/-- `str` of an `int`, which has at most 4300 digits. -/
def intText (n : ℤ) : Except PyException (List Char) :=
  if (Nat.toDigits 10 n.natAbs).length ≤ 4300 then
    .ok ((if n < 0 then ['-'] else []) ++ Nat.toDigits 10 n.natAbs)
  else .error .valueError

/-- `sv` in `encode_cursor`. -/
def SortValue.text : SortValue → Except PyException (List CodePoint)
  | .dt t => .ok ((isoformat t).map CodePoint.ofChar)
  | .bool b => (intText b.toInt).map (List.map CodePoint.ofChar)
  | .int n => (intText n).map (List.map CodePoint.ofChar)
  | .str text => .ok text

/-- `encode_cursor`. -/
def encodeCursor (sortValue : SortValue) (rowId : Uuid) : Except PyException (List CodePoint) := do
  let sv ← sortValue.text
  let front := ['v', '1'] ++ '|' :: (sortValue.kind ++ '|' :: (uuidText rowId ++ ['|']))
  let raw ← encodable (front.map CodePoint.ofChar ++ sv)
  return (Base64.strip (Base64.encode (String.ofList raw).toUTF8.data.toList)).map CodePoint.ofChar

/-- `value` in `decode_cursor`. -/
def readSortValue (std : OtherForms) (kind text : List Char) : Except PyException SortValue :=
  if kind = ['d', 't'] then (fromisoformat std text).map .dt
  else if kind = ['i'] then (orError .valueError (readInt std.plain text)).map .int
  else if kind = ['s'] then .ok (.str (text.map CodePoint.ofChar))
  else .error .valueError

/-- The parts of a payload. -/
def readPayload (std : OtherForms) (raw : List Char) : Except PyException (SortValue × Uuid) :=
  match split '|' 3 raw with
  | [version, kind, rawId, sv] =>
    if version = ['v', '1'] then do
      let rowId ← orError .valueError (readUuid std.plain rawId)
      let value ← readSortValue std kind sv
      return (value, rowId)
    else .error .valueError
  | _ => .error .valueError

/-- The body of `decode_cursor`. -/
def readToken (std : OtherForms) (token : List CodePoint) : Except PyException (SortValue × Uuid) := do
  let text ← encodable (token ++ List.replicate ((4 - token.length % 4) % 4) (CodePoint.ofChar '='))
  let bytes ← orError .binasciiError (Base64.decode text)
  let raw ← orError .unicodeDecodeError (String.fromUTF8? ⟨bytes.toArray⟩)
  readPayload std raw.toList

/-- `decode_cursor`. -/
def decodeCursor (std : OtherForms) (token : List CodePoint) : Except PyException (SortValue × Uuid) :=
  handling [.valueError, .binasciiError, .unicodeDecodeError] .cursorInvalidError (readToken std token)

/-! ## Strings that UTF-8 can write -/

theorem CodePoint.char?_ofChar (c : Char) : (CodePoint.ofChar c).char? = some c := by
  have hvalid : (CodePoint.ofChar c).val.isValidChar := c.valid
  unfold CodePoint.char?
  rw [dif_pos hvalid]
  exact congrArg some (Char.ext rfl)

theorem map_ofChar_injective : Function.Injective (List.map CodePoint.ofChar) := by
  apply List.map_injective_iff.mpr
  intro a b hab
  have hchar := congrArg CodePoint.char? hab
  rw [CodePoint.char?_ofChar, CodePoint.char?_ofChar] at hchar
  exact Option.some.inj hchar

theorem CodePoint.ofChar_of_char? {c : CodePoint} {a : Char} (h : c.char? = some a) :
    CodePoint.ofChar a = c := by
  unfold CodePoint.char? at h
  by_cases hvalid : c.val.isValidChar
  · rw [dif_pos hvalid] at h
    cases h
    rfl
  · rw [dif_neg hvalid] at h
    cases h

/-- The characters that are written are those of the string. -/
theorem encodable_ok {text : List CodePoint} {raw : List Char} (h : encodable text = .ok raw) :
    text = raw.map CodePoint.ofChar := by
  unfold encodable orError at h
  have hchars : text.mapM CodePoint.char? = some raw := by
    cases hchars : text.mapM CodePoint.char? with
    | none =>
      rw [hchars] at h
      cases h
    | some chars =>
      rw [hchars] at h
      cases h
      rfl
  clear h
  induction text generalizing raw with
  | nil =>
    cases hchars
    rfl
  | cons c text ih =>
    rw [List.mapM_cons] at hchars
    obtain ⟨a, ha, hchars⟩ := Option.bind_eq_some_iff.mp hchars
    obtain ⟨rest, hrest, hchars⟩ := Option.bind_eq_some_iff.mp hchars
    cases hchars
    rw [List.map_cons, CodePoint.ofChar_of_char? ha, ← ih hrest]

/-- A string without surrogates can be written. -/
theorem encodable_map (raw : List Char) : encodable (raw.map CodePoint.ofChar) = .ok raw := by
  have hchars : (raw.map CodePoint.ofChar).mapM CodePoint.char? = some raw := by
    induction raw with
    | nil => rfl
    | cons a raw ih =>
      rw [List.map_cons, List.mapM_cons, CodePoint.char?_ofChar, ih]
      rfl
  rw [encodable, hchars]
  rfl

/-! ## Times are read back -/

/-- A fraction is read in front of text that does not go on with one. -/
theorem fraction_append {n : ℕ} (h : n < 1000000) {rest : List Char} (hrest : rest.head? ≠ some '.') :
    fraction (fractionText n ++ rest) = some (n, rest) := by
  unfold fractionText
  by_cases hn : n = 0
  · rw [if_pos hn, hn, List.nil_append]
    cases rest with
    | nil => rfl
    | cons c rest =>
      have hc : c ≠ '.' := by simpa using hrest
      unfold fraction
      split
      · next heq =>
        cases heq
        exact absurd rfl hc
      · rfl
  · rw [if_neg hn, List.cons_append, fraction]
    exact field_append (by decide) (by decide) (by omega) _

theorem Offset.ofFields_natAbs (o : Offset) :
    Offset.ofFields (decide (o.microseconds < 0)) o.microseconds.natAbs = some o := by
  have hbounded := o.bounded
  unfold Offset.ofFields
  rw [dif_pos (by omega)]
  congr 1
  cases o with
  | mk n hn =>
    congr 1
    by_cases hneg : n < 0
    · simp only [hneg, decide_true, if_true]
      omega
    · simp only [hneg, decide_false, Bool.false_eq_true, if_false]
      omega

theorem readSign_signText (negative : Bool) : readSign (signText negative) = some negative := by
  cases negative <;> rfl

/-- Fields of two digits are read back. -/
theorem field_two {n : ℕ} (h : n < 100) (rest : List Char) :
    field 10 2 (write 10 2 n ++ rest) = some (n, rest) :=
  field_append (by decide) (by decide) (by omega) rest

theorem readSeconds_secondsText {second microsecond : ℕ} (hsecond : second < 60)
    (hmicrosecond : microsecond < 1000000) :
    readSeconds (secondsText second microsecond) = some (second, microsecond) := by
  unfold secondsText
  by_cases hwhole : second = 0 ∧ microsecond = 0
  · rw [if_pos hwhole, hwhole.1, hwhole.2]
    rfl
  · have hfraction : fraction (fractionText microsecond ++ []) = some (microsecond, []) :=
      fraction_append hmicrosecond (by simp)
    rw [List.append_nil] at hfraction
    rw [if_neg hwhole, readSeconds, literal_cons]
    simp only [Option.bind_eq_bind, Option.bind_some, field_two (show second < 100 by omega),
      hfraction, if_true]

/-- The fields of an offset are read back, whatever they are. -/
theorem readOffset_fields (negative : Bool) {hour minute second microsecond : ℕ}
    (hhour : hour < 100) (hminute : minute < 100) (hsecond : second < 60)
    (hmicrosecond : microsecond < 1000000) :
    readOffset (signText negative :: (write 10 2 hour ++ ':' ::
        (write 10 2 minute ++ secondsText second microsecond))) =
      (Offset.ofFields negative
        (((hour * 60 + minute) * 60 + second) * 1000000 + microsecond)).map some := by
  have hread := field_two hhour (':' :: (write 10 2 minute ++ secondsText second microsecond))
  have hread' := field_two hminute (secondsText second microsecond)
  rw [readOffset, readSign_signText, Option.bind_eq_bind, Option.bind_some]
  -- field by field: the kernel would compute with the weights under all the binders at once
  rw [hread, Option.bind_eq_bind, Option.bind_some]
  dsimp only
  rw [literal_cons, Option.bind_eq_bind, Option.bind_some]
  rw [hread', Option.bind_eq_bind, Option.bind_some]
  dsimp only
  rw [readSeconds_secondsText hsecond hmicrosecond, Option.bind_some]

theorem readOffset_offsetText (offset : Option Offset) :
    readOffset (offsetText offset) = some offset := by
  cases offset with
  | none => rfl
  | some o =>
    have hbounded := o.bounded
    have hback := Offset.ofFields_natAbs o
    have hbound : o.microseconds.natAbs < 86400000000 := by omega
    have hsum : ∀ n : ℕ, ((n / 3600000000 * 60 + n / 60000000 % 60) * 60 + n / 1000000 % 60) *
        1000000 + n % 1000000 = n := by
      intro n
      omega
    rw [offsetText, readOffset_fields _ (by omega) (by omega) (by omega) (by omega), hsum, hback,
      Option.map_some]

theorem readIsoformat_isoformat (t : DateTime) : readIsoformat (isoformat t) = some t := by
  have hdays := daysInMonth_le t.wall.year t.wall.month
  have hdate := t.wall.isDate
  have htime := t.wall.isTime
  have hfour : ∀ {n : ℕ} {rest : List Char}, n < 10000 →
      field 10 4 (write 10 4 n ++ rest) = some (n, rest) := fun h =>
    field_append (by decide) (by decide) (by omega) _
  have hoffset : (offsetText t.offset).head? ≠ some '.' := by
    cases t.offset with
    | none => simp [offsetText]
    | some o =>
      unfold offsetText
      dsimp only
      rw [List.head?_cons]
      cases decide (o.microseconds < 0) <;> decide
  rw [readIsoformat, isoformat, hfour (by omega), Option.bind_eq_bind, Option.bind_some]
  dsimp only
  rw [literal_cons, Option.bind_eq_bind, Option.bind_some]
  rw [field_two (by omega), Option.bind_eq_bind, Option.bind_some]
  dsimp only
  rw [literal_cons, Option.bind_eq_bind, Option.bind_some]
  -- from here on the binds are those of options
  rw [field_two (by omega), Option.bind_some]
  dsimp only
  rw [literal_cons, Option.bind_some, field_two (by omega), Option.bind_some]
  dsimp only
  rw [literal_cons, Option.bind_some, field_two (by omega), Option.bind_some]
  dsimp only
  rw [literal_cons, Option.bind_some, field_two (by omega), Option.bind_some]
  dsimp only
  rw [fraction_append htime.2.2.2 hoffset, Option.bind_some]
  dsimp only
  rw [Pagination.DateTime.ofFields_eq, Option.bind_some, readOffset_offsetText, Option.bind_some]

/-! ## Numbers are read back -/

theorem readInt_intText (std : Pagination.OtherForms) {n : ℤ} {text : List Char}
    (h : intText n = .ok text) : readInt std text = some n := by
  unfold intText at h
  split at h
  · next hshort =>
    have hread : readDigits (Nat.toDigits 10 n.natAbs) = some n.natAbs := by
      unfold readDigits
      rw [if_pos ⟨Nat.toDigits_ne_nil, hshort⟩, read_toDigits (by decide) (by decide)]
    cases h
    by_cases hneg : n < 0
    · rw [if_pos hneg]
      change readInt std ('-' :: Nat.toDigits 10 n.natAbs) = some n
      have hvalue : -(n.natAbs : ℤ) = n := by omega
      simp only [readInt, hread, Option.bind_eq_bind, Option.bind_some, Option.pure_def,
        Option.map_some, Option.some_or, hvalue]
    · rw [if_neg hneg, List.nil_append]
      unfold readInt
      split
      · next digits heq =>
        have hmem : '-' ∈ Nat.toDigits 10 n.natAbs := heq ▸ List.mem_cons_self
        have hdigit := Nat.isDigit_of_mem_toDigits (by decide) (by decide) hmem
        exact absurd hdigit (by decide)
      · have hvalue : (n.natAbs : ℤ) = n := by omega
        simp only [hread, Option.bind_eq_bind, Option.bind_some, Option.pure_def, Option.map_some,
          Option.some_or, hvalue]
  · cases h

/-! ## Tokens are read back -/

/-- A sort value as it is read back: Booleans are numbers. -/
def SortValue.plain : SortValue → SortValue
  | .bool b => .int b.toInt
  | value => value

/-- The text of a value is read as the value. -/
theorem readSortValue_text (std : OtherForms) {value : SortValue} {text : List Char}
    (h : value.text = .ok (text.map CodePoint.ofChar)) :
    readSortValue std value.kind text = .ok value.plain := by
  have hnumber : ∀ n : ℤ, (intText n).map (List.map CodePoint.ofChar) =
      .ok (text.map CodePoint.ofChar) → readInt std.plain text = some n := by
    intro n hn
    cases hdigits : intText n with
    | error e =>
      rw [hdigits] at hn
      cases hn
    | ok digits =>
      rw [hdigits] at hn
      have hsame := map_ofChar_injective (Except.ok.inj hn)
      rw [← hsame]
      exact readInt_intText std.plain hdigits
  cases value with
  | dt t =>
    have hsame := map_ofChar_injective (Except.ok.inj h)
    rw [SortValue.kind, readSortValue, if_pos rfl, ← hsame, fromisoformat, readIsoformat_isoformat]
    rfl
  | bool b =>
    rw [SortValue.kind, readSortValue, if_neg (by decide), if_pos rfl, hnumber _ h]
    rfl
  | int n =>
    rw [SortValue.kind, readSortValue, if_neg (by decide), if_pos rfl, hnumber _ h]
    rfl
  | str s =>
    rw [SortValue.kind, readSortValue, if_neg (by decide), if_neg (by decide), if_pos rfl,
      ← Except.ok.inj h]
    rfl

/-- A payload is cut into the parts that it was made of. -/
theorem readPayload_parts (std : OtherForms) (value : SortValue) {rowId : Uuid}
    (hid : rowId < 2 ^ 128) {text : List Char}
    (hvalue : value.text = .ok (text.map CodePoint.ofChar)) :
    readPayload std (['v', '1'] ++ '|' :: (value.kind ++ '|' :: (uuidText rowId ++ '|' :: text))) =
      .ok (value.plain, rowId) := by
  have hkind : '|' ∉ value.kind := by
    cases value <;> simp [SortValue.kind]
  have hsplit : split '|' 3
      (['v', '1'] ++ '|' :: (value.kind ++ '|' :: (uuidText rowId ++ '|' :: text))) =
      [['v', '1'], value.kind, uuidText rowId, text] := by
    rw [split_append (by decide), split_append hkind, split_append (not_mem_uuidText rowId)]
    rfl
  rw [readPayload, hsplit]
  dsimp only
  rw [if_pos rfl, readUuid_uuidText std.plain hid, orError, readSortValue_text std hvalue]
  rfl

/-- What stands in front of the sort value and what follows are encoded together. -/
theorem encodable_append {front : List Char} {text : List CodePoint} {raw : List Char}
    (h : encodable (front.map CodePoint.ofChar ++ text) = .ok raw) :
    ∃ rest, text = rest.map CodePoint.ofChar ∧ raw = front ++ rest := by
  have hraw := encodable_ok h
  have hfront := congrArg (List.take front.length) hraw
  have hrest := congrArg (List.drop front.length) hraw
  rw [List.take_left' (List.length_map _), ← List.map_take] at hfront
  rw [List.drop_left' (List.length_map _), ← List.map_drop] at hrest
  have hsame := map_ofChar_injective hfront
  refine ⟨raw.drop front.length, hrest, ?_⟩
  calc
    raw = raw.take front.length ++ raw.drop front.length := (List.take_append_drop _ _).symm
    _ = front ++ raw.drop front.length := by rw [← hsame]

/-- The token of a value is read as the value. -/
theorem readToken_encodeCursor (std : OtherForms) {value : SortValue} {rowId : Uuid}
    (hid : rowId < 2 ^ 128) {token : List CodePoint} (h : encodeCursor value rowId = .ok token) :
    readToken std token = .ok (value.plain, rowId) := by
  unfold encodeCursor at h
  cases htext : value.text with
  | error e =>
    rw [htext] at h
    cases h
  | ok text =>
    rw [htext] at h
    cases hencoded : encodable ((['v', '1'] ++ '|' :: (value.kind ++ '|' ::
        (uuidText rowId ++ ['|']))).map CodePoint.ofChar ++ text) with
    | error e =>
      simp only [bind, Except.bind, hencoded] at h
      cases h
    | ok raw =>
      simp only [bind, Except.bind, hencoded, pure, Except.pure, Except.ok.injEq] at h
      obtain ⟨rest, rfl, rfl⟩ := encodable_append hencoded
      subst h
      have hpadded : ∀ bytes : List UInt8, (Base64.strip (Base64.encode bytes)).map CodePoint.ofChar ++
          List.replicate ((4 - ((Base64.strip (Base64.encode bytes)).map CodePoint.ofChar).length % 4) % 4)
            (CodePoint.ofChar '=') =
          (Base64.padded (Base64.strip (Base64.encode bytes))).map CodePoint.ofChar := by
        intro bytes
        rw [Base64.padded, List.map_append, List.map_replicate, List.length_map]
      have hparts := readPayload_parts std value hid htext
      unfold readToken
      rw [hpadded, encodable_map]
      simp only [bind, Except.bind, Base64.decode_padded_strip, orError, fromUTF8?_toUTF8,
        String.toList_ofList]
      simpa using hparts

/-! ## Exceptions -/

/-- Whatever a layer raises is a `ValueError`. -/
def RaisesValueError {α : Type} (body : Except PyException α) : Prop :=
  ∀ e, body = .error e → e.isInstance .valueError = true

section Raises

variable {α β : Type}

theorem raisesValueError_ok (a : α) : RaisesValueError (.ok a) := by
  intro e h
  cases h

theorem raisesValueError_error {e : PyException} (he : e.isInstance .valueError = true) :
    RaisesValueError (.error e : Except PyException α) := by
  intro e' h
  cases h
  exact he

theorem raisesValueError_orError {e : PyException} (he : e.isInstance .valueError = true)
    (value : Option α) : RaisesValueError (orError e value) := by
  cases value with
  | none => exact raisesValueError_error he
  | some a => exact raisesValueError_ok a

theorem RaisesValueError.bind {body : Except PyException α} {next : α → Except PyException β}
    (h : RaisesValueError body) (hnext : ∀ a, RaisesValueError (next a)) :
    RaisesValueError (body >>= next) := by
  cases body with
  | error e => exact raisesValueError_error (h e rfl)
  | ok a => exact hnext a

theorem RaisesValueError.map {body : Except PyException α} (h : RaisesValueError body) (f : α → β) :
    RaisesValueError (body.map f) := by
  cases body with
  | error e => exact raisesValueError_error (h e rfl)
  | ok a => exact raisesValueError_ok (f a)

end Raises

theorem readSortValue_raises (std : OtherForms) (kind text : List Char) :
    RaisesValueError (readSortValue std kind text) := by
  unfold readSortValue
  split
  · exact (raisesValueError_orError rfl _).map _
  · split
    · exact (raisesValueError_orError rfl _).map _
    · split
      · exact raisesValueError_ok _
      · exact raisesValueError_error rfl

theorem readPayload_raises (std : OtherForms) (raw : List Char) :
    RaisesValueError (readPayload std raw) := by
  unfold readPayload
  split
  · split
    · apply (raisesValueError_orError rfl _).bind
      intro rowId
      apply (readSortValue_raises std _ _).bind
      intro value
      exact raisesValueError_ok _
    · exact raisesValueError_error rfl
  · exact raisesValueError_error rfl

theorem readToken_raises (std : OtherForms) (token : List CodePoint) :
    RaisesValueError (readToken std token) := by
  unfold readToken
  apply (raisesValueError_orError rfl _).bind
  intro text
  apply (raisesValueError_orError rfl _).bind
  intro bytes
  apply (raisesValueError_orError rfl _).bind
  intro raw
  exact readPayload_raises std raw.toList

/-- The sort value of a row: times of the database are in UTC. -/
def ofRow : Pagination.SortValue → SortValue
  | .dt t => .dt ⟨t, some ⟨0, by decide⟩⟩
  | .str s => .str (s.toList.map CodePoint.ofChar)
  | .int n => .int n

theorem isoformat_utc (t : Pagination.DateTime) :
    isoformat ⟨t, some ⟨0, by decide⟩⟩ = Pagination.isoformat t := by
  have hutc : offsetText (some ⟨0, by decide⟩) = ['+', '0', '0', ':', '0', '0'] := by decide
  rw [isoformat, Pagination.isoformat, hutc]
  rfl

theorem intText_eq {n : ℤ} (h : (Nat.toDigits 10 n.natAbs).length ≤ 4300) :
    intText n = .ok (toString n).toList := by
  unfold intText
  rw [if_pos h]
  cases n with
  | ofNat m =>
    rw [if_neg (by simp)]
    change Except.ok ([] ++ Nat.toDigits 10 m) = Except.ok (Nat.repr m).toList
    rw [Nat.toList_repr, List.nil_append]
  | negSucc m =>
    rw [if_pos (Int.negSucc_lt_zero m)]
    change Except.ok (['-'] ++ Nat.toDigits 10 (m + 1)) = Except.ok ("-" ++ Nat.repr (m + 1)).toList
    rw [String.toList_append, Nat.toList_repr]
    rfl

/-- The cursors of the lists are those of the codec. -/
theorem encodeCursor_ofRow (value : Pagination.SortValue) (rowId : Uuid)
    (hdigits : ∀ n, value = .int n → (Nat.toDigits 10 n.natAbs).length ≤ 4300) :
    encodeCursor (ofRow value) rowId =
      .ok ((Pagination.encodeCursor value rowId).toList.map CodePoint.ofChar) := by
  have htext : (ofRow value).text = .ok (value.text.map CodePoint.ofChar) := by
    cases value with
    | dt t => exact congrArg (fun l => Except.ok (l.map CodePoint.ofChar)) (isoformat_utc t)
    | str s => rfl
    | int n =>
      rw [ofRow, SortValue.text, intText_eq (hdigits n rfl)]
      rfl
  have hkind : (ofRow value).kind = value.kind := by
    cases value <;> rfl
  have hpayload : (['v', '1'] ++ '|' :: (value.kind ++ '|' :: (uuidText rowId ++ ['|']))) ++ value.text =
      Pagination.payload value rowId := by
    rw [Pagination.payload]
    simp only [List.cons_append, List.append_assoc, List.nil_append]
  unfold encodeCursor
  rw [htext, hkind]
  simp only [bind, Except.bind, pure, Except.pure]
  rw [← List.map_append, hpayload, encodable_map, Pagination.encodeCursor, String.toList_ofList]

end Munavvar.CursorCodec
