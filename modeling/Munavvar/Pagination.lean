import Munavvar.Base64
import Munavvar.Database
import Munavvar.Numerals

/-!
# Cursors

A cursor is the sort value and the identifier of the last row of a page, written
as base64 text. The identifier stands in front of the sort value, so that a name
may hold any character. A cursor that is written is read back.
-/

namespace Munavvar.Pagination

open Munavvar.Database
open Munavvar.Numerals

/-! ## Times -/

/-- The number of days of a month. -/
def daysInMonth (year month : ℕ) : ℕ :=
  if month = 2 then
    if year % 4 = 0 ∧ (year % 100 ≠ 0 ∨ year % 400 = 0) then 29 else 28
  else if month ∈ [4, 6, 9, 11] then 30 else 31

/-- A `datetime` in UTC. -/
structure DateTime where
  /-- `MINYEAR` to `MAXYEAR`. -/
  year : ℕ
  /-- The month from 1. -/
  month : ℕ
  /-- The day of the month from 1. -/
  day : ℕ
  /-- Hours of the day. -/
  hour : ℕ
  /-- Minutes of the hour. -/
  minute : ℕ
  /-- Seconds of the minute. -/
  second : ℕ
  /-- Microseconds of the second. -/
  microsecond : ℕ
  /-- The day is one of the calendar. -/
  isDate : 1 ≤ year ∧ year ≤ 9999 ∧ 1 ≤ month ∧ month ≤ 12 ∧ 1 ≤ day ∧ day ≤ daysInMonth year month
  /-- The time is one of the day. -/
  isTime : hour < 24 ∧ minute < 60 ∧ second < 60 ∧ microsecond < 1000000
  deriving DecidableEq, Repr

/-- The fields in one number: times are compared by their fields, the years first. -/
def DateTime.serial (t : DateTime) : ℕ :=
  (((((t.year * 13 + t.month) * 32 + t.day) * 24 + t.hour) * 60 + t.minute) * 60 + t.second) *
    1000000 + t.microsecond

theorem daysInMonth_le (year month : ℕ) : daysInMonth year month ≤ 31 := by
  rw [daysInMonth]
  split_ifs <;> omega

theorem DateTime.serial_injective : Function.Injective DateTime.serial := by
  intro t t' h
  have hdays := daysInMonth_le t.year t.month
  have hdays' := daysInMonth_le t'.year t'.month
  have hdate := t.isDate
  have hdate' := t'.isDate
  have htime := t.isTime
  have htime' := t'.isTime
  rw [DateTime.serial, DateTime.serial] at h
  have hmicrosecond : t.microsecond = t'.microsecond := by omega
  have hsecond : t.second = t'.second := by omega
  have hminute : t.minute = t'.minute := by omega
  have hhour : t.hour = t'.hour := by omega
  have hday : t.day = t'.day := by omega
  have hmonth : t.month = t'.month := by omega
  have hyear : t.year = t'.year := by omega
  cases t
  cases t'
  subst hyear hmonth hday hhour hminute hsecond hmicrosecond
  rfl

instance : LinearOrder DateTime := LinearOrder.lift' DateTime.serial DateTime.serial_injective

/-- `isoformat` of a time in UTC. -/
def isoformat (t : DateTime) : List Char :=
  write 10 4 t.year ++ '-' :: (write 10 2 t.month ++ '-' :: (write 10 2 t.day ++ 'T' ::
    (write 10 2 t.hour ++ ':' :: (write 10 2 t.minute ++ ':' :: (write 10 2 t.second ++
      ((if t.microsecond = 0 then [] else '.' :: write 10 6 t.microsecond) ++
        ['+', '0', '0', ':', '0', '0']))))))

/-- The texts that the standard library reads besides those that it writes:
other forms of times, identifiers and numbers. -/
structure OtherForms where
  /-- The other forms of a time of ISO 8601. -/
  isoformat : List Char → Option DateTime
  /-- The other forms of an identifier. -/
  uuid : List Char → Option Uuid
  /-- The other forms of a number. -/
  int : List Char → Option ℤ

/-- A time of the given fields. -/
def DateTime.ofFields (year month day hour minute second microsecond : ℕ) : Option DateTime :=
  if hdate : 1 ≤ year ∧ year ≤ 9999 ∧ 1 ≤ month ∧ month ≤ 12 ∧ 1 ≤ day ∧
      day ≤ daysInMonth year month then
    if htime : hour < 24 ∧ minute < 60 ∧ second < 60 ∧ microsecond < 1000000 then
      some ⟨year, month, day, hour, minute, second, microsecond, hdate, htime⟩
    else none
  else none

/-- The microseconds, which are left away when there are none. -/
def fraction (text : List Char) : Option (ℕ × List Char) :=
  match text with
  | '.' :: rest => field 10 6 rest
  | _ => some (0, text)

/-- Read the form that `isoformat` writes. -/
def readIsoformat (text : List Char) : Option DateTime := do
  let (year, text) ← field 10 4 text
  let text ← literal '-' text
  let (month, text) ← field 10 2 text
  let text ← literal '-' text
  let (day, text) ← field 10 2 text
  let text ← literal 'T' text
  let (hour, text) ← field 10 2 text
  let text ← literal ':' text
  let (minute, text) ← field 10 2 text
  let text ← literal ':' text
  let (second, text) ← field 10 2 text
  let (microsecond, text) ← fraction text
  if text = ['+', '0', '0', ':', '0', '0'] then
    DateTime.ofFields year month day hour minute second microsecond
  else none

/-- `datetime.fromisoformat`, as an instant in UTC. -/
def fromisoformat (std : OtherForms) (text : List Char) : Option DateTime :=
  (readIsoformat text).or (std.isoformat text)

theorem DateTime.ofFields_eq (t : DateTime) :
    DateTime.ofFields t.year t.month t.day t.hour t.minute t.second t.microsecond = some t := by
  rw [DateTime.ofFields, dif_pos t.isDate, dif_pos t.isTime]

theorem fraction_append {n : ℕ} (h : n < 1000000) :
    fraction ((if n = 0 then [] else '.' :: write 10 6 n) ++ ['+', '0', '0', ':', '0', '0']) =
      some (n, ['+', '0', '0', ':', '0', '0']) := by
  by_cases hn : n = 0
  · rw [if_pos hn, hn]
    rfl
  · rw [if_neg hn, List.cons_append, fraction]
    exact field_append (by decide) (by decide) (by omega) _

theorem fromisoformat_isoformat (std : OtherForms) (t : DateTime) :
    fromisoformat std (isoformat t) = some t := by
  have hdays := daysInMonth_le t.year t.month
  have hdate := t.isDate
  have htime := t.isTime
  have hfour : ∀ {n : ℕ} {rest : List Char}, n < 10000 →
      field 10 4 (write 10 4 n ++ rest) = some (n, rest) := fun h =>
    field_append (by decide) (by decide) (by omega) _
  have htwo : ∀ {n : ℕ} {rest : List Char}, n < 100 →
      field 10 2 (write 10 2 n ++ rest) = some (n, rest) := fun h =>
    field_append (by decide) (by decide) (by omega) _
  have hread : readIsoformat (isoformat t) = some t := by
    rw [readIsoformat, isoformat, hfour (by omega), Option.bind_eq_bind, Option.bind_some]
    dsimp only
    rw [literal_cons, Option.bind_eq_bind, Option.bind_some]
    -- from here on the binds are those of options
    rw [htwo (by omega), Option.bind_some]
    dsimp only
    rw [literal_cons, Option.bind_some, htwo (by omega), Option.bind_some]
    dsimp only
    rw [literal_cons, Option.bind_some, htwo (by omega), Option.bind_some]
    dsimp only
    rw [literal_cons, Option.bind_some, htwo (by omega), Option.bind_some]
    dsimp only
    rw [literal_cons, Option.bind_some, htwo (by omega), Option.bind_some]
    dsimp only
    rw [fraction_append htime.2.2.2, Option.bind_some]
    dsimp only
    rw [if_pos rfl, DateTime.ofFields_eq]
  rw [fromisoformat, hread, Option.some_or]

/-! ## Identifiers and numbers -/

/-- The text of an identifier: 32 digits in five groups. -/
def uuidText (id : Uuid) : List Char := grouped '-' [8, 4, 4, 4] (write 16 32 id)

/-- `uuid.UUID`: the hyphens may stand anywhere. -/
def readUuid (std : OtherForms) (text : List Char) : Option Uuid :=
  let hex := text.filter (· ≠ '-')
  if hex.length = 32 then (read 16 hex).or (std.uuid text) else std.uuid text

/-- The decimal digits of a number, of which there are at most 4300. -/
def readDigits (text : List Char) : Option ℕ :=
  if text ≠ [] ∧ text.length ≤ 4300 then read 10 text else none

/-- `int`. -/
def readInt (std : OtherForms) (text : List Char) : Option ℤ :=
  match text with
  | '-' :: digits => ((readDigits digits).map fun n => -(n : ℤ)).or (std.int text)
  | digits => ((readDigits digits).map fun n => (n : ℤ)).or (std.int text)

/-- No digit is a separator. -/
theorem not_mem_hex {c : Char} (h : c = '-' ∨ c = '|') (id : Uuid) : c ∉ write 16 32 id := by
  intro hmem
  have hall : ∀ d : Fin 16, d.val.digitChar ≠ '-' ∧ d.val.digitChar ≠ '|' := by decide
  obtain ⟨d, hd, hc⟩ := mem_write (by decide) hmem
  rcases h with h | h
  · exact (hall ⟨d, hd⟩).1 (hc ▸ h)
  · exact (hall ⟨d, hd⟩).2 (hc ▸ h)

theorem not_mem_uuidText (id : Uuid) : '|' ∉ uuidText id := by
  intro hmem
  rcases mem_grouped hmem with h | h
  · exact not_mem_hex (.inr rfl) id h
  · exact absurd h (by decide)

theorem readUuid_uuidText (std : OtherForms) {id : Uuid} (h : id < 2 ^ 128) :
    readUuid std (uuidText id) = some id := by
  have hfilter := filter_grouped [8, 4, 4, 4] (not_mem_hex (.inl rfl) id)
  have hread : read 16 (write 16 32 id) = some id := read_write (by decide) (by decide) (by omega)
  simp only [readUuid, uuidText, hfilter, length_write, if_true, hread, Option.some_or]

/-! ## Tokens -/

/-- `SortValue`. -/
inductive SortValue
  | dt (t : DateTime)
  | str (s : String)
  | int (n : ℤ)
  deriving DecidableEq, Repr

/-- The kind in a cursor. -/
def SortValue.kind : SortValue → List Char
  | .dt _ => ['d', 't']
  | .str _ => ['s']
  | .int _ => ['i']

/-- The text in a cursor. -/
def SortValue.text : SortValue → List Char
  | .dt t => isoformat t
  | .str s => s.toList
  | .int n => (toString n).toList

/-- What a cursor holds: `v1|kind|uuid|sort_value`. -/
def payload (sortValue : SortValue) (rowId : Uuid) : List Char :=
  ['v', '1'] ++ '|' :: (sortValue.kind ++ '|' :: (uuidText rowId ++ '|' :: sortValue.text))

/-- `encode_cursor`. -/
def encodeCursor (sortValue : SortValue) (rowId : Uuid) : String :=
  let raw := (String.ofList (payload sortValue rowId)).toUTF8.data.toList
  String.ofList (Base64.strip (Base64.encode raw))

/-- The sort value of a kind. -/
def readSortValue (std : OtherForms) (kind text : List Char) : Option SortValue :=
  if kind = ['d', 't'] then (fromisoformat std text).map .dt
  else if kind = ['i'] then (readInt std text).map .int
  else if kind = ['s'] then some (.str (String.ofList text))
  else none

/-- The payload of a cursor in its parts. -/
def readPayload (std : OtherForms) (raw : List Char) : Option (SortValue × Uuid) :=
  match split '|' 3 raw with
  | [version, kind, rawId, text] =>
    if version = ['v', '1'] then do
      let rowId ← readUuid std rawId
      let value ← readSortValue std kind text
      some (value, rowId)
    else none
  | _ => none

/-- `decode_cursor`. -/
def decodeCursor (std : OtherForms) (token : String) : Except Err (SortValue × Uuid) :=
  let decoded : Option (SortValue × Uuid) := do
    let bytes ← Base64.decode (Base64.padded token.toList)
    let raw ← String.fromUTF8? ⟨bytes.toArray⟩
    readPayload std raw.toList
  match decoded with
  | some value => .ok value
  | none => .error .cursorInvalid

/-- A time or a name is read back; numbers are only written up to the digits that are read. -/
theorem readPayload_payload (std : OtherForms) {sortValue : SortValue} {rowId : Uuid}
    (hid : rowId < 2 ^ 128)
    (hvalue : readSortValue std sortValue.kind sortValue.text = some sortValue) :
    readPayload std (payload sortValue rowId) = some (sortValue, rowId) := by
  have hkind : '|' ∉ sortValue.kind := by
    cases sortValue <;> simp [SortValue.kind]
  have hsplit : split '|' 3 (payload sortValue rowId) =
      [['v', '1'], sortValue.kind, uuidText rowId, sortValue.text] := by
    rw [payload, split_append (by decide), split_append hkind,
      split_append (not_mem_uuidText rowId)]
    rfl
  rw [readPayload, hsplit]
  simp [readUuid_uuidText std hid, hvalue]

theorem fromUTF8?_toUTF8 (s : String) :
    String.fromUTF8? ⟨s.toUTF8.data.toList.toArray⟩ = some s := by
  rw [Array.toArray_toList, String.fromUTF8?]
  exact dif_pos s.isValidUTF8

theorem decode_encode (std : OtherForms) {sortValue : SortValue} {rowId : Uuid}
    (hid : rowId < 2 ^ 128)
    (hvalue : readSortValue std sortValue.kind sortValue.text = some sortValue) :
    decodeCursor std (encodeCursor sortValue rowId) = .ok (sortValue, rowId) := by
  rw [decodeCursor, encodeCursor]
  simp only [String.toList_ofList, Base64.decode_padded_strip, fromUTF8?_toUTF8,
    Option.bind_eq_bind, Option.bind_some, readPayload_payload std hid hvalue]

theorem readSortValue_dt (std : OtherForms) (t : DateTime) :
    readSortValue std (SortValue.dt t).kind (SortValue.dt t).text = some (.dt t) := by
  rw [SortValue.kind, SortValue.text, readSortValue, if_pos rfl, fromisoformat_isoformat]
  rfl

theorem readSortValue_str (std : OtherForms) (s : String) :
    readSortValue std (SortValue.str s).kind (SortValue.str s).text = some (.str s) := by
  simp [SortValue.kind, SortValue.text, readSortValue]

theorem decodeCursor_empty (std : OtherForms) : decodeCursor std "" = .error .cursorInvalid := by
  have hempty : String.fromUTF8? ⟨([] : List UInt8).toArray⟩ = some "" := fromUTF8?_toUTF8 ""
  have hdecode : Base64.decode (Base64.padded "".toList) = some [] := rfl
  rw [decodeCursor]
  simp only [hdecode, hempty, Option.bind_eq_bind, Option.bind_some]
  rfl

/-- A cursor that is read back is not empty. -/
theorem encodeCursor_ne_empty {sortValue : SortValue} {rowId : Uuid} (std : OtherForms)
    (hid : rowId < 2 ^ 128)
    (hvalue : readSortValue std sortValue.kind sortValue.text = some sortValue) :
    encodeCursor sortValue rowId ≠ "" := by
  intro hempty
  have hdecode := decode_encode std hid hvalue
  rw [hempty, decodeCursor_empty] at hdecode
  cases hdecode

/-! ## Pages -/

/-- `CursorPaginationMeta`. -/
structure CursorPaginationMeta where
  /-- The number of rows of a page. -/
  size : ℕ
  /-- Whether rows follow. -/
  hasMore : Bool
  /-- The cursor of the next page. -/
  nextCursor : Option String
  deriving DecidableEq, Repr

/-- `build_cursor_meta`: cut the page off the rows, of which one more was fetched. -/
def buildCursorMeta {α : Type} (rows : List α) (size : ℕ) (sortValueOf : α → SortValue)
    (id : α → Uuid) : List α × CursorPaginationMeta :=
  let hasMore := decide (size < rows.length)
  let pageRows := rows.take size
  let nextCursor :=
    if hasMore then pageRows.getLast?.map fun last => encodeCursor (sortValueOf last) (id last)
    else none
  (pageRows, { size, hasMore, nextCursor })

end Munavvar.Pagination
