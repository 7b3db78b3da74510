import Munavvar.Calendar
import Munavvar.ListSummaries
import Munavvar.OrderService

/-!
# Period presets

The lists of transactions and of stock movements offer periods by name: this
day, week or month and the one before. A preset becomes an earliest and a latest
time, the end of a period being the midnight at which the next one begins, and
the queries of both lists take the latest time in. So that midnight lies in both
periods, and every other time between them in exactly one.
-/

namespace Munavvar.DatePresets

open Munavvar.Database
open Munavvar.Calendar
open Munavvar.ListSummaries
open Munavvar.OrderService (dayLength)
open Munavvar.Pagination (DateTime daysInMonth daysInMonth_le)

/-! ## Local times -/

/-- A time of the clock, with the `fold` that tells the two passes of an hour
apart when the clock is set back. -/
structure LocalTime where
  /-- Date and time of day. -/
  wall : DateTime
  /-- The second pass. -/
  fold : Bool
  deriving DecidableEq, Repr

/-- `ZoneInfo("Asia/Tashkent")`. -/
structure Zone where
  /-- `utcoffset()` in microseconds. -/
  utcoffset : LocalTime → ℤ
  /-- Tashkent has always been ahead of UTC, by less than a day. -/
  ahead : ∀ t, 0 ≤ utcoffset t ∧ utcoffset t < dayLength

/-- The instant of a local time, counted from the first of January 1970. -/
def Zone.instant (zone : Zone) (t : LocalTime) : ℤ :=
  (toOrdinal t.wall - 719163) * dayLength + timeOfDay t.wall - zone.utcoffset t

/-- `astimezone(UTC)`, which fails outside of the calendar. -/
def Zone.astimezone (zone : Zone) (t : LocalTime) : Option ℤ :=
  if -719162 * dayLength ≤ zone.instant t ∧ zone.instant t < 2932897 * dayLength then
    some (zone.instant t)
  else none

/-- `replace(hour=0, minute=0, second=0, microsecond=0)`. -/
def LocalTime.midnight (t : LocalTime) : LocalTime :=
  ⟨⟨t.wall.year, t.wall.month, t.wall.day, 0, 0, 0, 0, t.wall.isDate, by decide⟩, t.fold⟩

/-- `replace` of the date. -/
def LocalTime.replace (t : LocalTime) (year month day : ℕ) : Option LocalTime :=
  (replaceDate t.wall year month day).map (⟨·, t.fold⟩)

/-- `t + timedelta(days=n)`, which forgets the fold. -/
def LocalTime.plus (t : LocalTime) (n : ℕ) : Option LocalTime := (addDays n t.wall).map (⟨·, false⟩)

/-- `t - timedelta(days=n)`, which forgets the fold. -/
def LocalTime.minus (t : LocalTime) (n : ℕ) : Option LocalTime := (subDays n t.wall).map (⟨·, false⟩)

/-- The same day of the next month, by `replace`. -/
def LocalTime.nextMonth (t : LocalTime) : Option LocalTime :=
  if t.wall.month = 12 then t.replace (t.wall.year + 1) 1 t.wall.day
  else t.replace t.wall.year (t.wall.month + 1) t.wall.day

/-- The same day of the month before, by `replace`. -/
def LocalTime.previousMonth (t : LocalTime) : Option LocalTime :=
  if t.wall.month = 1 then t.replace (t.wall.year - 1) 12 t.wall.day
  else t.replace t.wall.year (t.wall.month - 1) t.wall.day

/-! ## Presets -/

/-- `DatePreset`. -/
inductive DatePreset
  | today | yesterday | thisWeek | lastWeek | thisMonth | lastMonth
  deriving DecidableEq, Repr

/-- A filter with its `date_preset`. -/
structure Preset (F : Type) where
  /-- The name of a period. -/
  datePreset : Option DatePreset
  /-- The other fields. -/
  filter : F

/-- `start_local` and `end_local`. -/
def localInterval (now : LocalTime) (preset : DatePreset) : Option (LocalTime × LocalTime) := do
  let today := now.midnight
  match preset with
  | .today =>
    let endLocal ← today.plus 1
    return (today, endLocal)
  | .yesterday =>
    let startLocal ← today.minus 1
    return (startLocal, today)
  | .thisWeek =>
    let startLocal ← today.minus (weekday today.wall)
    let endLocal ← startLocal.plus 7
    return (startLocal, endLocal)
  | .lastWeek =>
    let thisMonday ← today.minus (weekday today.wall)
    let startLocal ← thisMonday.minus 7
    return (startLocal, thisMonday)
  | .thisMonth =>
    let startLocal ← today.replace today.wall.year today.wall.month 1
    let endLocal ← startLocal.nextMonth
    return (startLocal, endLocal)
  | .lastMonth =>
    let firstThis ← today.replace today.wall.year today.wall.month 1
    let startLocal ← firstThis.previousMonth
    return (startLocal, firstThis)

/-- `_resolve_date_preset` of a filter whose period is set by `update`. It fails
where Python raises: a date outside of the calendar. -/
def resolveWith {F : Type} (update : F → ℤ → ℤ → F) (zone : Zone) (now : LocalTime) (f : Preset F) :
    Option (Preset F) :=
  match f.datePreset with
  | none => some f
  | some preset => do
    let (startLocal, endLocal) ← localInterval now preset
    let dateFrom ← zone.astimezone startLocal
    let dateTo ← zone.astimezone endLocal
    return ⟨none, update f.filter dateFrom dateTo⟩

/-- `_resolve_date_preset` of the finance list; `now` is `datetime.now(tz)`. -/
def resolveTransactionPreset : Zone → LocalTime → Preset TransactionFilter →
    Option (Preset TransactionFilter) :=
  resolveWith fun f dateFrom dateTo => { f with dateFrom := some dateFrom, dateTo := some dateTo }

/-- `_resolve_date_preset` of the stock ledger. -/
def resolveMovementPreset : Zone → LocalTime → Preset StockTransactionFilter →
    Option (Preset StockTransactionFilter) :=
  resolveWith fun f dateFrom dateTo => { f with dateFrom := some dateFrom, dateTo := some dateTo }

/-! ## Adjacent periods -/

/-- The lengths of the periods. -/
inductive Span
  | day | week | month
  deriving DecidableEq, Repr

/-- The preset of the period that goes on. -/
def Span.current : Span → DatePreset
  | .day => .today
  | .week => .thisWeek
  | .month => .thisMonth

/-- The preset of the period before. -/
def Span.previous : Span → DatePreset
  | .day => .yesterday
  | .week => .lastWeek
  | .month => .lastMonth

/-- A date is the first one of the period that another date lies in. -/
def Span.IsFirst (first date : DateTime) : Span → Prop
  | .day => toOrdinal first = toOrdinal date
  | .week => weekday first = 0 ∧ toOrdinal first ≤ toOrdinal date ∧
      toOrdinal date < toOrdinal first + 7
  | .month => first.year = date.year ∧ first.month = date.month ∧ first.day = 1

/-- A local time is the midnight at which the current period begins. -/
structure Span.IsStart (span : Span) (now start : LocalTime) : Prop where
  /-- It is midnight. -/
  isMidnight : timeOfDay start.wall = 0
  /-- Only the arithmetic of weeks forgets the fold. -/
  fold : start.fold = (now.fold && span != .week)
  /-- The date is the first one. -/
  isFirst : span.IsFirst start.wall now.wall

/-- The current period begins at an instant. -/
def Span.BeginsAt (span : Span) (zone : Zone) (now : LocalTime) (t : ℤ) : Prop :=
  ∃ start, span.IsStart now start ∧ t = zone.instant start

/-- A period has one first date. -/
theorem Span.IsFirst.unique {span : Span} {first first' date : DateTime}
    (h : span.IsFirst first date) (h' : span.IsFirst first' date) :
    first.year = first'.year ∧ first.month = first'.month ∧ first.day = first'.day := by
  cases span with
  | day => exact date_eq_of_toOrdinal (h.trans h'.symm)
  | week =>
    obtain ⟨hmonday, hle, hlt⟩ := h
    obtain ⟨hmonday', hle', hlt'⟩ := h'
    unfold weekday at hmonday hmonday'
    exact date_eq_of_toOrdinal (by omega)
  | month => exact ⟨h.1.trans h'.1.symm, h.2.1.trans h'.2.1.symm, h.2.2.trans h'.2.2.symm⟩

theorem Span.IsStart.unique {span : Span} {now start start' : LocalTime}
    (h : span.IsStart now start) (h' : span.IsStart now start') : start = start' := by
  have hwall := eq_of_midnight (h.isFirst.unique h'.isFirst) h.isMidnight h'.isMidnight
  have hfold := h.fold.trans h'.fold.symm
  cases start
  cases start'
  subst hwall hfold
  rfl

theorem Zone.instant_lt (zone : Zone) {t t' : LocalTime} (h : toOrdinal t.wall < toOrdinal t'.wall)
    (htime : timeOfDay t.wall = 0) (htime' : timeOfDay t'.wall = 0) :
    zone.instant t < zone.instant t' := by
  have hahead := zone.ahead t
  have hahead' := zone.ahead t'
  unfold Zone.instant
  rw [htime, htime']
  unfold dayLength at hahead hahead' ⊢
  omega

theorem LocalTime.timeOfDay_midnight (t : LocalTime) : timeOfDay t.midnight.wall = 0 := by
  simp [timeOfDay, LocalTime.midnight]

theorem LocalTime.toOrdinal_midnight (t : LocalTime) :
    toOrdinal t.midnight.wall = toOrdinal t.wall := rfl

theorem LocalTime.plus_eq_some {t t' : LocalTime} {n : ℕ} (h : t.plus n = some t') :
    toOrdinal t'.wall = toOrdinal t.wall + n ∧ timeOfDay t'.wall = timeOfDay t.wall ∧
      t'.fold = false := by
  obtain ⟨wall, hwall, rfl⟩ := Option.map_eq_some_iff.mp h
  obtain ⟨hordinal, htime⟩ := toOrdinal_addDays hwall
  exact ⟨hordinal, htime.timeOfDay_eq, rfl⟩

theorem LocalTime.minus_eq_some {t t' : LocalTime} {n : ℕ} (h : t.minus n = some t') :
    toOrdinal t'.wall + n = toOrdinal t.wall ∧ timeOfDay t'.wall = timeOfDay t.wall ∧
      t'.fold = false := by
  obtain ⟨wall, hwall, rfl⟩ := Option.map_eq_some_iff.mp h
  obtain ⟨hordinal, htime⟩ := toOrdinal_subDays hwall
  exact ⟨hordinal, htime.timeOfDay_eq, rfl⟩

theorem LocalTime.replace_eq_some {t t' : LocalTime} {year month day : ℕ}
    (h : t.replace year month day = some t') :
    t'.wall.year = year ∧ t'.wall.month = month ∧ t'.wall.day = day ∧
      timeOfDay t'.wall = timeOfDay t.wall ∧ t'.fold = t.fold := by
  obtain ⟨wall, hwall, rfl⟩ := Option.map_eq_some_iff.mp h
  obtain ⟨hyear, hmonth, hday, htime⟩ := replaceDate_eq_some hwall
  exact ⟨hyear, hmonth, hday, htime.timeOfDay_eq, rfl⟩

/-- The midnight before is the beginning of a day. -/
theorem isStart_day (now : LocalTime) : Span.day.IsStart now now.midnight :=
  ⟨now.timeOfDay_midnight, (Bool.and_true _).symm, now.toOrdinal_midnight⟩

/-- The Monday of a week is its first date. -/
theorem isStart_week {now monday : LocalTime}
    (h : now.midnight.minus (weekday now.midnight.wall) = some monday) :
    Span.week.IsStart now monday := by
  obtain ⟨hordinal, htime, hfold⟩ := LocalTime.minus_eq_some h
  rw [now.toOrdinal_midnight] at hordinal
  have hweekday : weekday now.midnight.wall = (toOrdinal now.wall + 6) % 7 := rfl
  constructor
  · rw [htime, now.timeOfDay_midnight]
  · rw [hfold]
    simp
  · have hmonday : weekday monday.wall = 0 := by
      unfold weekday
      omega
    exact ⟨hmonday, by omega, by omega⟩

/-- The first day of a month is its first date. -/
theorem isStart_month {now first : LocalTime}
    (h : now.midnight.replace now.midnight.wall.year now.midnight.wall.month 1 = some first) :
    Span.month.IsStart now first := by
  obtain ⟨hyear, hmonth, hday, htime, hfold⟩ := LocalTime.replace_eq_some h
  constructor
  · rw [htime, now.timeOfDay_midnight]
  · rw [hfold]
    exact (Bool.and_true _).symm
  · exact ⟨hyear, hmonth, hday⟩

/-- The current period begins where it should and ends at a later midnight. -/
theorem localInterval_current {span : Span} {now start finish : LocalTime}
    (h : localInterval now span.current = some (start, finish)) :
    span.IsStart now start ∧ toOrdinal start.wall < toOrdinal finish.wall ∧
      timeOfDay finish.wall = 0 := by
  cases span with
  | day =>
    obtain ⟨next, hnext, heq⟩ := Option.bind_eq_some_iff.mp h
    cases heq
    obtain ⟨hordinal, htime, hfold⟩ := LocalTime.plus_eq_some hnext
    have hstart := isStart_day now
    exact ⟨hstart, by omega, htime.trans hstart.isMidnight⟩
  | week =>
    obtain ⟨monday, hmonday, hrest⟩ := Option.bind_eq_some_iff.mp h
    obtain ⟨next, hnext, heq⟩ := Option.bind_eq_some_iff.mp hrest
    cases heq
    have hstart := isStart_week hmonday
    obtain ⟨hordinal, htime, hfold⟩ := LocalTime.plus_eq_some hnext
    exact ⟨hstart, by omega, htime.trans hstart.isMidnight⟩
  | month =>
    obtain ⟨first, hfirst, hrest⟩ := Option.bind_eq_some_iff.mp h
    obtain ⟨next, hnext, heq⟩ := Option.bind_eq_some_iff.mp hrest
    cases heq
    have hstart := isStart_month hfirst
    unfold LocalTime.nextMonth at hnext
    split_ifs at hnext with hdecember
    · obtain ⟨hyear, hmonth, hday, htime, hfold⟩ := LocalTime.replace_eq_some hnext
      exact ⟨hstart, toOrdinal_lt_of_year (by omega), htime.trans hstart.isMidnight⟩
    · obtain ⟨hyear, hmonth, hday, htime, hfold⟩ := LocalTime.replace_eq_some hnext
      exact ⟨hstart, toOrdinal_lt_of_month hyear.symm (by omega), htime.trans hstart.isMidnight⟩

/-- The period before ends where the current one begins. -/
theorem localInterval_previous {span : Span} {now start finish : LocalTime}
    (h : localInterval now span.previous = some (start, finish)) :
    span.IsStart now finish ∧ toOrdinal start.wall < toOrdinal finish.wall ∧
      timeOfDay start.wall = 0 := by
  cases span with
  | day =>
    obtain ⟨last, hlast, heq⟩ := Option.bind_eq_some_iff.mp h
    cases heq
    obtain ⟨hordinal, htime, hfold⟩ := LocalTime.minus_eq_some hlast
    have hstart := isStart_day now
    exact ⟨hstart, by omega, htime.trans hstart.isMidnight⟩
  | week =>
    obtain ⟨monday, hmonday, hrest⟩ := Option.bind_eq_some_iff.mp h
    obtain ⟨last, hlast, heq⟩ := Option.bind_eq_some_iff.mp hrest
    cases heq
    have hstart := isStart_week hmonday
    obtain ⟨hordinal, htime, hfold⟩ := LocalTime.minus_eq_some hlast
    exact ⟨hstart, by omega, htime.trans hstart.isMidnight⟩
  | month =>
    obtain ⟨first, hfirst, hrest⟩ := Option.bind_eq_some_iff.mp h
    obtain ⟨last, hlast, heq⟩ := Option.bind_eq_some_iff.mp hrest
    have hdate := first.wall.isDate
    cases heq
    have hstart := isStart_month hfirst
    unfold LocalTime.previousMonth at hlast
    split_ifs at hlast with hjanuary
    · obtain ⟨hyear, hmonth, hday, htime, hfold⟩ := LocalTime.replace_eq_some hlast
      exact ⟨hstart, toOrdinal_lt_of_year (by omega), htime.trans hstart.isMidnight⟩
    · obtain ⟨hyear, hmonth, hday, htime, hfold⟩ := LocalTime.replace_eq_some hlast
      exact ⟨hstart, toOrdinal_lt_of_month hyear (by omega), htime.trans hstart.isMidnight⟩

/-! ## Every preset resolves -/

/-- The numbers of the dates of the years 2 to 9998. -/
theorem toOrdinal_range {t : DateTime} (hyear : 2 ≤ t.year ∧ t.year ≤ 9998) :
    365 < toOrdinal t ∧ toOrdinal t ≤ 3651694 := by
  have hbounds := toOrdinal_bounds t
  have hsecond : daysBeforeYear 2 ≤ daysBeforeYear t.year := daysBeforeYear_mono (by omega) hyear.1
  have hlast : daysBeforeYear (t.year + 1) ≤ daysBeforeYear 9999 :=
    daysBeforeYear_mono (by omega) (by omega)
  have hsecond' : daysBeforeYear 2 = 365 := rfl
  have hlast' : daysBeforeYear 9999 = 3651694 := by decide
  omega

theorem Zone.astimezone_isSome (zone : Zone) {t : LocalTime} (h : 2 ≤ toOrdinal t.wall)
    (htime : timeOfDay t.wall = 0) : (zone.astimezone t).isSome := by
  have hahead := zone.ahead t
  have hbounds := toOrdinal_bounds t.wall
  have hdate := t.wall.isDate
  have hlast : daysBeforeYear (t.wall.year + 1) ≤ daysBeforeYear 10000 :=
    daysBeforeYear_mono (by omega) (by omega)
  have hlast' : daysBeforeYear 10000 = 3652059 := by decide
  have hrange : -719162 * dayLength ≤ zone.instant t ∧ zone.instant t < 2932897 * dayLength := by
    unfold Zone.instant
    rw [htime]
    unfold dayLength at hahead ⊢
    omega
  unfold Zone.astimezone
  rw [if_pos hrange]
  rfl

theorem LocalTime.plus_isSome {t : LocalTime} {n : ℕ} (h : toOrdinal t.wall + n ≤ 3652059) :
    (t.plus n).isSome := by
  rw [LocalTime.plus, Option.isSome_map]
  exact addDays_isSome h

theorem LocalTime.minus_isSome {t : LocalTime} {n : ℕ} (h : n < toOrdinal t.wall) :
    (t.minus n).isSome := by
  rw [LocalTime.minus, Option.isSome_map]
  exact subDays_isSome h

/-- Every month of the calendar has a first day. -/
theorem LocalTime.replace_isSome (t : LocalTime) {year month : ℕ}
    (h : 1 ≤ year ∧ year ≤ 9999 ∧ 1 ≤ month ∧ month ≤ 12) : (t.replace year month 1).isSome := by
  have hdays : 1 ≤ daysInMonth year month := by
    unfold daysInMonth
    split_ifs <;> omega
  rw [LocalTime.replace, Option.isSome_map]
  exact replaceDate_isSome t.wall (by omega)

/-- The first days of the months next to that of a first day exist. -/
theorem LocalTime.neighbours {t : LocalTime} (hday : t.wall.day = 1)
    (hyear : 3 ≤ t.wall.year ∧ t.wall.year ≤ 9998) :
    t.nextMonth.isSome ∧ ∃ last, t.previousMonth = some last ∧ 365 < toOrdinal last.wall := by
  have hdate := t.wall.isDate
  unfold LocalTime.nextMonth LocalTime.previousMonth
  rw [hday]
  constructor
  · split_ifs <;> exact t.replace_isSome (by omega)
  · split_ifs with hjanuary
    · have hlast : (t.replace (t.wall.year - 1) 12 1).isSome := t.replace_isSome (by omega)
      obtain ⟨last, hlast⟩ := Option.isSome_iff_exists.mp hlast
      have hlastYear := (LocalTime.replace_eq_some hlast).1
      exact ⟨last, hlast, (toOrdinal_range (by omega)).1⟩
    · have hlast : (t.replace t.wall.year (t.wall.month - 1) 1).isSome := t.replace_isSome (by omega)
      obtain ⟨last, hlast⟩ := Option.isSome_iff_exists.mp hlast
      have hlastYear := (LocalTime.replace_eq_some hlast).1
      exact ⟨last, hlast, (toOrdinal_range (by omega)).1⟩

/-- In the years 3 to 9998 every preset has its interval. -/
theorem exists_localInterval {now : LocalTime} (hyear : 3 ≤ now.wall.year ∧ now.wall.year ≤ 9998)
    (preset : DatePreset) : ∃ start finish, localInterval now preset = some (start, finish) ∧
      2 ≤ toOrdinal start.wall := by
  have hrange := toOrdinal_range (t := now.wall) (by omega)
  have htoday := now.toOrdinal_midnight
  have hweekday : weekday now.midnight.wall < 7 := Nat.mod_lt _ (by decide)
  obtain ⟨monday, hmonday⟩ := Option.isSome_iff_exists.mp (LocalTime.minus_isSome
    (t := now.midnight) (n := weekday now.midnight.wall) (by omega))
  have hordinal := (LocalTime.minus_eq_some hmonday).1
  have hfirst : (now.midnight.replace now.midnight.wall.year now.midnight.wall.month 1).isSome := by
    have hdate := now.midnight.wall.isDate
    exact now.midnight.replace_isSome (by omega)
  obtain ⟨first, hfirst⟩ := Option.isSome_iff_exists.mp hfirst
  obtain ⟨hfirstYear, hfirstMonth, hfirstDay, hrest⟩ := LocalTime.replace_eq_some hfirst
  have hyear' : now.midnight.wall.year = now.wall.year := rfl
  have hneighbours := LocalTime.neighbours hfirstDay (by omega)
  unfold localInterval
  cases preset with
  | today =>
    obtain ⟨next, hnext⟩ := Option.isSome_iff_exists.mp
      (LocalTime.plus_isSome (t := now.midnight) (n := 1) (by omega))
    simp only [hnext, Option.bind_eq_bind, Option.bind_some]
    exact ⟨_, _, rfl, by omega⟩
  | yesterday =>
    obtain ⟨last, hlast⟩ := Option.isSome_iff_exists.mp
      (LocalTime.minus_isSome (t := now.midnight) (n := 1) (by omega))
    have hbefore := (LocalTime.minus_eq_some hlast).1
    simp only [hlast, Option.bind_eq_bind, Option.bind_some]
    exact ⟨_, _, rfl, by omega⟩
  | thisWeek =>
    obtain ⟨next, hnext⟩ := Option.isSome_iff_exists.mp
      (LocalTime.plus_isSome (t := monday) (n := 7) (by omega))
    simp only [hmonday, hnext, Option.bind_eq_bind, Option.bind_some]
    exact ⟨_, _, rfl, by omega⟩
  | lastWeek =>
    obtain ⟨last, hlast⟩ := Option.isSome_iff_exists.mp
      (LocalTime.minus_isSome (t := monday) (n := 7) (by omega))
    have hbefore := (LocalTime.minus_eq_some hlast).1
    simp only [hmonday, hlast, Option.bind_eq_bind, Option.bind_some]
    exact ⟨_, _, rfl, by omega⟩
  | thisMonth =>
    obtain ⟨next, hnext⟩ := Option.isSome_iff_exists.mp hneighbours.1
    have hafter := toOrdinal_range (t := first.wall) (by omega)
    simp only [hfirst, hnext, Option.bind_eq_bind, Option.bind_some]
    exact ⟨_, _, rfl, by omega⟩
  | lastMonth =>
    obtain ⟨last, hlast, hafter⟩ := hneighbours.2
    simp only [hfirst, hlast, Option.bind_eq_bind, Option.bind_some]
    exact ⟨_, _, rfl, by omega⟩

/-- A preset names the current period of a length or the one before. -/
theorem DatePreset.eq_span (preset : DatePreset) :
    ∃ span : Span, preset = span.current ∨ preset = span.previous := by
  cases preset with
  | today => exact ⟨.day, .inl rfl⟩
  | yesterday => exact ⟨.day, .inr rfl⟩
  | thisWeek => exact ⟨.week, .inl rfl⟩
  | lastWeek => exact ⟨.week, .inr rfl⟩
  | thisMonth => exact ⟨.month, .inl rfl⟩
  | lastMonth => exact ⟨.month, .inr rfl⟩

/-- In the years 3 to 9998 every preset resolves. -/
theorem resolveWith_isSome {F : Type} (update : F → ℤ → ℤ → F) (zone : Zone) {now : LocalTime}
    (hyear : 3 ≤ now.wall.year ∧ now.wall.year ≤ 9998) (preset : DatePreset) (f : F) :
    (resolveWith update zone now ⟨some preset, f⟩).isSome := by
  obtain ⟨start, finish, hinterval, hordinal⟩ := exists_localInterval hyear preset
  have hends : timeOfDay start.wall = 0 ∧ timeOfDay finish.wall = 0 ∧
      toOrdinal start.wall < toOrdinal finish.wall := by
    obtain ⟨span, rfl | rfl⟩ := preset.eq_span
    · obtain ⟨hstart, hlt, hmidnight⟩ := localInterval_current hinterval
      exact ⟨hstart.isMidnight, hmidnight, hlt⟩
    · obtain ⟨hfinish, hlt, hmidnight⟩ := localInterval_previous hinterval
      exact ⟨hmidnight, hfinish.isMidnight, hlt⟩
  obtain ⟨dateFrom, hfrom⟩ := Option.isSome_iff_exists.mp (zone.astimezone_isSome hordinal hends.1)
  obtain ⟨dateTo, hto⟩ := Option.isSome_iff_exists.mp
    (zone.astimezone_isSome (t := finish) (by omega) hends.2.1)
  unfold resolveWith
  simp only [hinterval, hfrom, hto, Option.bind_eq_bind, Option.bind_some]
  rfl

/-! ## What the lists show -/

/-- One row seen through the filters of two periods, with the earliest time of
the first period and the latest time of the second one. -/
structure Divided (earlier later : Bool) (dateFrom dateTo : Option ℤ) (t : ℤ) : Prop where
  /-- At most one of them selects it. -/
  atMostOne : ¬ (earlier = true ∧ later = true)
  /-- One of them does if it lies between the two times. -/
  atLeastOne : ∀ start ∈ dateFrom, ∀ finish ∈ dateTo, start ≤ t → t ≤ finish →
    earlier = true ∨ later = true

theorem Zone.astimezone_eq_some {zone : Zone} {t : LocalTime} {n : ℤ}
    (h : zone.astimezone t = some n) : n = zone.instant t := by
  unfold Zone.astimezone at h
  split_ifs at h
  exact (Option.some.inj h).symm

/-- What a resolved preset is. -/
theorem resolveWith_eq_some {F : Type} {update : F → ℤ → ℤ → F} {zone : Zone} {now : LocalTime}
    {preset : DatePreset} {f : F} {resolved : Preset F}
    (h : resolveWith update zone now ⟨some preset, f⟩ = some resolved) :
    ∃ start finish, localInterval now preset = some (start, finish) ∧
      resolved = ⟨none, update f (zone.instant start) (zone.instant finish)⟩ := by
  obtain ⟨⟨start, finish⟩, hinterval, hrest⟩ := Option.bind_eq_some_iff.mp h
  obtain ⟨dateFrom, hfrom, hrest⟩ := Option.bind_eq_some_iff.mp hrest
  obtain ⟨dateTo, hto, heq⟩ := Option.bind_eq_some_iff.mp hrest
  refine ⟨start, finish, hinterval, ?_⟩
  rw [← Zone.astimezone_eq_some hfrom, ← Zone.astimezone_eq_some hto]
  exact (Option.some.inj heq).symm

/-- Two closed intervals that meet divide the times between them except for the
one at which they meet. -/
theorem divided_iff {start boundary finish t : ℤ} (hstart : start < boundary)
    (hfinish : boundary < finish) :
    Divided (decide (start ≤ t) && decide (t ≤ boundary))
        (decide (boundary ≤ t) && decide (t ≤ finish)) (some start) (some finish) t ↔
      t ≠ boundary := by
  constructor
  · intro h ht
    apply h.atMostOne
    rw [ht]
    simp only [Bool.and_eq_true, decide_eq_true_eq]
    omega
  · intro ht
    constructor
    · simp only [Bool.and_eq_true, decide_eq_true_eq]
      omega
    · intro start' hstart' finish' hfinish' hle hle'
      cases hstart'
      cases hfinish'
      simp only [Bool.and_eq_true, decide_eq_true_eq]
      omega

section Lists

variable {F : Type} {update : F → ℤ → ℤ → F} {zone : Zone} {now : LocalTime} {span : Span} {f : F}
  {earlier later : Preset F} {t : ℤ}

/-- A row that a list selects by its time alone is in one of two adjacent periods,
unless it lies at the midnight between them. -/
theorem divided_iff_of_resolved (admits : F → Bool) (bounds : F → Option ℤ × Option ℤ)
    (hadmits : ∀ a b, admits (update f a b) = (decide (a ≤ t) && decide (t ≤ b)))
    (hbounds : ∀ a b, bounds (update f a b) = (some a, some b))
    (hearlier : resolveWith update zone now ⟨some span.previous, f⟩ = some earlier)
    (hlater : resolveWith update zone now ⟨some span.current, f⟩ = some later) :
    Divided (admits earlier.filter) (admits later.filter) (bounds earlier.filter).1
      (bounds later.filter).2 t ↔ ¬ span.BeginsAt zone now t := by
  obtain ⟨start, boundary, hbefore, rfl⟩ := resolveWith_eq_some hearlier
  obtain ⟨boundary', finish, hafter, rfl⟩ := resolveWith_eq_some hlater
  obtain ⟨hboundary, hlt, hmidnight⟩ := localInterval_previous hbefore
  obtain ⟨hboundary', hlt', hmidnight'⟩ := localInterval_current hafter
  cases hboundary.unique hboundary'
  rw [hadmits, hadmits, hbounds, hbounds, divided_iff
    (zone.instant_lt hlt hmidnight hboundary.isMidnight)
    (zone.instant_lt hlt' hboundary.isMidnight hmidnight')]
  constructor
  · rintro hne ⟨boundary', hunique, heq⟩
    cases hboundary.unique hunique
    exact hne heq
  · intro hbegins heq
    exact hbegins ⟨boundary, hboundary, heq⟩

end Lists

/-- The finance list compares the time of a transaction with both ends. -/
theorem TransactionFilter.admits_dates (search : TextSearch) (f : TransactionFilter)
    (j : JoinedTransaction) (h : { f with dateFrom := none, dateTo := none }.admits search j = true)
    (a b : ℤ) :
    { f with dateFrom := some a, dateTo := some b }.admits search j =
      (decide (a ≤ j.row.createdAt) && decide (j.row.createdAt ≤ b)) := by
  unfold ListSummaries.TransactionFilter.admits unset at h ⊢
  simp only [Option.all_none, Option.all_some, Bool.and_true, Bool.and_eq_true] at h ⊢
  simp only [h, Bool.true_and, Bool.and_true]

/-- The stock ledger compares the time of a movement with both ends. -/
theorem StockTransactionFilter.admits_dates (search : TextSearch) (f : StockTransactionFilter)
    (j : JoinedMovement) (h : { f with dateFrom := none, dateTo := none }.admits search j = true)
    (a b : ℤ) :
    { f with dateFrom := some a, dateTo := some b }.admits search j =
      (decide (a ≤ j.row.createdAt) && decide (j.row.createdAt ≤ b)) := by
  unfold ListSummaries.StockTransactionFilter.admits unset at h ⊢
  simp only [Option.all_none, Option.all_some, Bool.and_true, Bool.and_eq_true] at h ⊢
  simp only [h, Bool.true_and, Bool.and_true]

/-- In both lists a row that the other conditions admit belongs to at most one of
two adjacent periods, and to one if it lies between their ends, exactly when its
time is not the midnight at which the later one begins. -/
theorem adjacent_presets_iff (zone : Zone) (now : LocalTime) (span : Span) (search : TextSearch) :
    (∀ (f : TransactionFilter) (j : JoinedTransaction) (earlier later : Preset TransactionFilter),
      { f with dateFrom := none, dateTo := none }.admits search j = true →
      resolveTransactionPreset zone now ⟨some span.previous, f⟩ = some earlier →
      resolveTransactionPreset zone now ⟨some span.current, f⟩ = some later →
      (Divided (earlier.filter.admits search j) (later.filter.admits search j)
          earlier.filter.dateFrom later.filter.dateTo j.row.createdAt ↔
        ¬ span.BeginsAt zone now j.row.createdAt)) ∧
    (∀ (f : StockTransactionFilter) (j : JoinedMovement)
        (earlier later : Preset StockTransactionFilter),
      { f with dateFrom := none, dateTo := none }.admits search j = true →
      resolveMovementPreset zone now ⟨some span.previous, f⟩ = some earlier →
      resolveMovementPreset zone now ⟨some span.current, f⟩ = some later →
      (Divided (earlier.filter.admits search j) (later.filter.admits search j)
          earlier.filter.dateFrom later.filter.dateTo j.row.createdAt ↔
        ¬ span.BeginsAt zone now j.row.createdAt)) := by
  constructor
  · intro f j earlier later hrest hearlier hlater
    have hdates := TransactionFilter.admits_dates search f j hrest
    exact divided_iff_of_resolved (fun f => f.admits search j)
      (fun f => (f.dateFrom, f.dateTo)) hdates (fun a b => rfl) hearlier hlater
  · intro f j earlier later hrest hearlier hlater
    have hdates := StockTransactionFilter.admits_dates search f j hrest
    exact divided_iff_of_resolved (fun f => f.admits search j)
      (fun f => (f.dateFrom, f.dateTo)) hdates (fun a b => rfl) hearlier hlater

/-! ## The turn of a year -/

/-- Five hours ahead of UTC, as Tashkent has been since 1992. -/
def fiveHours : Zone := ⟨fun _ => 18000000000, fun _ => ⟨by decide, by decide⟩⟩

/-- Noon in the middle of January 2026. -/
def inJanuary : LocalTime := ⟨⟨2026, 1, 15, 12, 0, 0, 0, by decide, by decide⟩, false⟩

/-- The midnight at which 2026 begins. -/
def newYear : LocalTime := ⟨⟨2026, 1, 1, 0, 0, 0, 0, by decide, by decide⟩, false⟩

/-- A posted debt of a client with the accounts and users it belongs to. -/
def paidAt (t : ℤ) : JoinedTransaction :=
  ⟨21, ⟨1, 2, none, none, 50, .completed, "debt", t, true⟩, ⟨1, 0, .revenue, true, 0, "revenue"⟩,
    ⟨2, 5, .client, true, 0, "client"⟩, ⟨.system, true, "system"⟩, ⟨.clientB2C, true, "client"⟩,
    none, none⟩

/-- A delivery of water by the vendor. -/
def movedAt (t : ℤ) : JoinedMovement :=
  ⟨31, ⟨11, 7, 1, 2, 4, t⟩, ⟨1, some 0, .virtualVendor, true, "vendor"⟩,
    ⟨2, some 5, .warehouse, true, "main"⟩, ⟨.water, "water", 10, none, true⟩,
    ⟨1, 2, .initialBalance, .completed, 5, some 5, none, none, []⟩⟩

theorem newYear_begins : Span.month.BeginsAt fiveHours inJanuary 1767207600000000 :=
  ⟨newYear, ⟨by decide, by decide, rfl, rfl, rfl⟩, by decide⟩

/-- A transaction at the first microsecond of the year belongs to both months. -/
theorem counted_in_both_months :
    ¬ ∀ (zone : Zone) (now : LocalTime) (span : Span) (search : TextSearch),
      (∀ (f : TransactionFilter) (j : JoinedTransaction) (earlier later : Preset TransactionFilter),
        { f with dateFrom := none, dateTo := none }.admits search j = true →
        resolveTransactionPreset zone now ⟨some span.previous, f⟩ = some earlier →
        resolveTransactionPreset zone now ⟨some span.current, f⟩ = some later →
        Divided (earlier.filter.admits search j) (later.filter.admits search j)
          earlier.filter.dateFrom later.filter.dateTo j.row.createdAt) ∧
      (∀ (f : StockTransactionFilter) (j : JoinedMovement)
          (earlier later : Preset StockTransactionFilter),
        { f with dateFrom := none, dateTo := none }.admits search j = true →
        resolveMovementPreset zone now ⟨some span.previous, f⟩ = some earlier →
        resolveMovementPreset zone now ⟨some span.current, f⟩ = some later →
        Divided (earlier.filter.admits search j) (later.filter.admits search j)
          earlier.filter.dateFrom later.filter.dateTo j.row.createdAt) := by
  intro hclaim
  have hyear : 3 ≤ inJanuary.wall.year ∧ inJanuary.wall.year ≤ 9998 := by decide
  have hrest : TransactionFilter.admits noSearch {} (paidAt 1767207600000000) = true := by decide
  obtain ⟨earlier, hearlier⟩ := Option.isSome_iff_exists.mp
    (resolveWith_isSome _ fiveHours hyear Span.month.previous ({} : TransactionFilter))
  obtain ⟨later, hlater⟩ := Option.isSome_iff_exists.mp
    (resolveWith_isSome _ fiveHours hyear Span.month.current ({} : TransactionFilter))
  have hdivided := (hclaim fiveHours inJanuary .month noSearch).1 {} (paidAt 1767207600000000)
    earlier later hrest hearlier hlater
  have hdates := TransactionFilter.admits_dates noSearch {} (paidAt 1767207600000000) hrest
  exact (divided_iff_of_resolved (fun f => f.admits noSearch (paidAt 1767207600000000))
    (fun f => (f.dateFrom, f.dateTo)) hdates (fun a b => rfl) hearlier hlater).mp hdivided
      newYear_begins

/-- A microsecond later a transaction and a movement belong to January alone. -/
theorem adjacent_presets_sample :
    ∃ earlier later earlier' later',
      resolveTransactionPreset fiveHours inJanuary ⟨some .lastMonth, {}⟩ = some earlier ∧
      resolveTransactionPreset fiveHours inJanuary ⟨some .thisMonth, {}⟩ = some later ∧
      resolveMovementPreset fiveHours inJanuary ⟨some .lastMonth, {}⟩ = some earlier' ∧
      resolveMovementPreset fiveHours inJanuary ⟨some .thisMonth, {}⟩ = some later' ∧
      (Divided (earlier.filter.admits noSearch (paidAt 1767207600000001))
          (later.filter.admits noSearch (paidAt 1767207600000001)) earlier.filter.dateFrom
          later.filter.dateTo 1767207600000001 ↔
        ¬ Span.month.BeginsAt fiveHours inJanuary 1767207600000001) ∧
      (Divided (earlier'.filter.admits noSearch (movedAt 1767207600000001))
          (later'.filter.admits noSearch (movedAt 1767207600000001)) earlier'.filter.dateFrom
          later'.filter.dateTo 1767207600000001 ↔
        ¬ Span.month.BeginsAt fiveHours inJanuary 1767207600000001) := by
  have hyear : 3 ≤ inJanuary.wall.year ∧ inJanuary.wall.year ≤ 9998 := by decide
  obtain ⟨earlier, hearlier⟩ := Option.isSome_iff_exists.mp
    (resolveWith_isSome _ fiveHours hyear .lastMonth ({} : TransactionFilter))
  obtain ⟨later, hlater⟩ := Option.isSome_iff_exists.mp
    (resolveWith_isSome _ fiveHours hyear .thisMonth ({} : TransactionFilter))
  obtain ⟨earlier', hearlier'⟩ := Option.isSome_iff_exists.mp
    (resolveWith_isSome _ fiveHours hyear .lastMonth ({} : StockTransactionFilter))
  obtain ⟨later', hlater'⟩ := Option.isSome_iff_exists.mp
    (resolveWith_isSome _ fiveHours hyear .thisMonth ({} : StockTransactionFilter))
  have hboth := adjacent_presets_iff fiveHours inJanuary .month noSearch
  exact ⟨earlier, later, earlier', later', hearlier, hlater, hearlier', hlater',
    hboth.1 {} (paidAt 1767207600000001) earlier later (by decide) hearlier hlater,
    hboth.2 {} (movedAt 1767207600000001) earlier' later' (by decide) hearlier' hlater'⟩

end Munavvar.DatePresets
