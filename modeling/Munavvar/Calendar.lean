import Munavvar.Pagination

/-!
# The calendar

Days are numbered from the first of January of the year one, through months and
years of any length. A later date has a greater number, so a number stands for
one date, and the neighbours of a date have the neighbouring numbers.
-/

namespace Munavvar.Calendar

open Munavvar.Pagination (DateTime daysInMonth)

/-! ## Numbers of days -/

/-- The days of a year before a month. -/
def daysBeforeMonth (year : ℕ) : ℕ → ℕ
  | 0 => 0
  | 1 => 0
  | m + 2 => daysBeforeMonth year (m + 1) + daysInMonth year (m + 1)

/-- The days before a year. -/
def daysBeforeYear (year : ℕ) : ℕ :=
  (year - 1) * 365 + (year - 1) / 4 - (year - 1) / 100 + (year - 1) / 400

/-- `toordinal`. -/
def toOrdinal (t : DateTime) : ℕ := daysBeforeYear t.year + daysBeforeMonth t.year t.month + t.day

/-- `weekday`: Monday is zero. -/
def weekday (t : DateTime) : ℕ := (toOrdinal t + 6) % 7

theorem daysBeforeMonth_succ {m : ℕ} (year : ℕ) (hm : 1 ≤ m) :
    daysBeforeMonth year (m + 1) = daysBeforeMonth year m + daysInMonth year m := by
  cases m with
  | zero => omega
  | succ m => rw [daysBeforeMonth]

theorem daysBeforeMonth_mono {m m' : ℕ} (year : ℕ) (hm : 1 ≤ m) (h : m ≤ m') :
    daysBeforeMonth year m ≤ daysBeforeMonth year m' := by
  induction m', h using Nat.le_induction with
  | base => exact le_rfl
  | succ m' hle ih =>
    have hstep := daysBeforeMonth_succ year (hm.trans hle)
    omega

/-- Eleven of the twelve months have the same days in every year. -/
theorem daysBeforeMonth_year (year : ℕ) :
    daysBeforeMonth year 13 = 337 + daysInMonth year 2 := by
  have hmonths : daysBeforeMonth year 13 =
      0 + 31 + daysInMonth year 2 + 31 + 30 + 31 + 30 + 31 + 31 + 30 + 31 + 30 + 31 := rfl
  omega

/-- A year goes on until the next one begins. -/
theorem daysBeforeYear_succ {year : ℕ} (hyear : 1 ≤ year) :
    daysBeforeYear (year + 1) = daysBeforeYear year + daysBeforeMonth year 13 := by
  rw [daysBeforeMonth_year, daysInMonth, if_pos rfl, daysBeforeYear, daysBeforeYear,
    Nat.add_sub_cancel]
  have hfour : year / 4 = (year - 1) / 4 + if year % 4 = 0 then 1 else 0 := by
    split_ifs <;> omega
  have hhundred : year / 100 = (year - 1) / 100 + if year % 100 = 0 then 1 else 0 := by
    split_ifs <;> omega
  have hera : year / 400 = (year - 1) / 400 + if year % 400 = 0 then 1 else 0 := by
    split_ifs <;> omega
  rw [hfour, hhundred, hera]
  split_ifs <;> omega

theorem daysBeforeYear_mono {year year' : ℕ} (hyear : 1 ≤ year) (h : year ≤ year') :
    daysBeforeYear year ≤ daysBeforeYear year' := by
  induction year', h using Nat.le_induction with
  | base => exact le_rfl
  | succ year' hle ih =>
    have hstep := daysBeforeYear_succ (hyear.trans hle)
    omega

/-- A date lies in its month, and its month in its year. -/
theorem toOrdinal_bounds (t : DateTime) :
    daysBeforeYear t.year + daysBeforeMonth t.year t.month < toOrdinal t ∧
      toOrdinal t ≤ daysBeforeYear t.year + daysBeforeMonth t.year (t.month + 1) ∧
      toOrdinal t ≤ daysBeforeYear (t.year + 1) := by
  have hdate := t.isDate
  have hmonth := daysBeforeMonth_succ t.year hdate.2.2.1
  have hrest : daysBeforeMonth t.year (t.month + 1) ≤ daysBeforeMonth t.year 13 :=
    daysBeforeMonth_mono t.year (by omega) (by omega)
  have hyear := daysBeforeYear_succ hdate.1
  unfold toOrdinal
  omega

/-- A date of a later year has a greater number. -/
theorem toOrdinal_lt_of_year {t t' : DateTime} (h : t.year < t'.year) : toOrdinal t < toOrdinal t' := by
  have hbounds := toOrdinal_bounds t
  have hbounds' := toOrdinal_bounds t'
  have hyear : daysBeforeYear (t.year + 1) ≤ daysBeforeYear t'.year :=
    daysBeforeYear_mono (by omega) h
  omega

/-- A date of a later month of the same year has a greater number. -/
theorem toOrdinal_lt_of_month {t t' : DateTime} (hyear : t.year = t'.year) (h : t.month < t'.month) :
    toOrdinal t < toOrdinal t' := by
  have hbounds := toOrdinal_bounds t
  have hbounds' := toOrdinal_bounds t'
  have hmonth := daysBeforeMonth_mono t.year (m := t.month + 1) (by omega) h
  rw [← hyear] at hbounds'
  omega

/-- A number stands for one date. -/
theorem date_eq_of_toOrdinal {t t' : DateTime} (h : toOrdinal t = toOrdinal t') :
    t.year = t'.year ∧ t.month = t'.month ∧ t.day = t'.day := by
  have hyear : t.year = t'.year := by
    rcases Nat.lt_trichotomy t.year t'.year with hlt | heq | hgt
    · have hless := toOrdinal_lt_of_year hlt
      omega
    · exact heq
    · have hless := toOrdinal_lt_of_year hgt
      omega
  have hmonth : t.month = t'.month := by
    rcases Nat.lt_trichotomy t.month t'.month with hlt | heq | hgt
    · have hless := toOrdinal_lt_of_month hyear hlt
      omega
    · exact heq
    · have hless := toOrdinal_lt_of_month hyear.symm hgt
      omega
  have hday : t.day = t'.day := by
    unfold toOrdinal at h
    rw [hyear, hmonth] at h
    omega
  exact ⟨hyear, hmonth, hday⟩

/-! ## Neighbouring days -/

/-- `replace(year=…, month=…, day=…)`, which fails on a date that does not exist. -/
def replaceDate (t : DateTime) (year month day : ℕ) : Option DateTime :=
  DateTime.ofFields year month day t.hour t.minute t.second t.microsecond

/-- The same time of the next day. -/
def nextDay (t : DateTime) : Option DateTime :=
  if t.day < daysInMonth t.year t.month then replaceDate t t.year t.month (t.day + 1)
  else if t.month < 12 then replaceDate t t.year (t.month + 1) 1
  else replaceDate t (t.year + 1) 1 1

/-- The same time of the day before. -/
def previousDay (t : DateTime) : Option DateTime :=
  if 1 < t.day then replaceDate t t.year t.month (t.day - 1)
  else if 1 < t.month then
    replaceDate t t.year (t.month - 1) (daysInMonth t.year (t.month - 1))
  else replaceDate t (t.year - 1) 12 31

/-- `t + timedelta(days=n)`. -/
def addDays : ℕ → DateTime → Option DateTime
  | 0, t => some t
  | n + 1, t => (nextDay t).bind (addDays n)

/-- `t - timedelta(days=n)`. -/
def subDays : ℕ → DateTime → Option DateTime
  | 0, t => some t
  | n + 1, t => (previousDay t).bind (subDays n)

/-- Two times are the same time of the day. -/
def SameTime (t t' : DateTime) : Prop :=
  t'.hour = t.hour ∧ t'.minute = t.minute ∧ t'.second = t.second ∧ t'.microsecond = t.microsecond

theorem SameTime.trans {t t' t'' : DateTime} (h : SameTime t t') (h' : SameTime t' t'') :
    SameTime t t'' :=
  ⟨h'.1.trans h.1, h'.2.1.trans h.2.1, h'.2.2.1.trans h.2.2.1, h'.2.2.2.trans h.2.2.2⟩

/-- The microseconds since midnight. -/
def timeOfDay (t : DateTime) : ℕ :=
  ((t.hour * 60 + t.minute) * 60 + t.second) * 1000000 + t.microsecond

theorem SameTime.timeOfDay_eq {t t' : DateTime} (h : SameTime t t') : timeOfDay t' = timeOfDay t := by
  rw [timeOfDay, timeOfDay, h.1, h.2.1, h.2.2.1, h.2.2.2]

/-- A date has one midnight. -/
theorem eq_of_midnight {t t' : DateTime} (hdate : t.year = t'.year ∧ t.month = t'.month ∧ t.day = t'.day)
    (h : timeOfDay t = 0) (h' : timeOfDay t' = 0) : t = t' := by
  have htime := t.isTime
  have htime' := t'.isTime
  unfold timeOfDay at h h'
  have hhour : t.hour = t'.hour := by omega
  have hminute : t.minute = t'.minute := by omega
  have hsecond : t.second = t'.second := by omega
  have hmicrosecond : t.microsecond = t'.microsecond := by omega
  obtain ⟨hyear, hmonth, hday⟩ := hdate
  cases t
  cases t'
  subst hyear hmonth hday hhour hminute hsecond hmicrosecond
  rfl

theorem replaceDate_eq_some {t t' : DateTime} {year month day : ℕ}
    (h : replaceDate t year month day = some t') :
    t'.year = year ∧ t'.month = month ∧ t'.day = day ∧ SameTime t t' := by
  unfold replaceDate DateTime.ofFields at h
  split_ifs at h with hdate htime
  cases h
  exact ⟨rfl, rfl, rfl, rfl, rfl, rfl, rfl⟩

theorem replaceDate_isSome (t : DateTime) {year month day : ℕ}
    (h : 1 ≤ year ∧ year ≤ 9999 ∧ 1 ≤ month ∧ month ≤ 12 ∧ 1 ≤ day ∧ day ≤ daysInMonth year month) :
    (replaceDate t year month day).isSome := by
  unfold replaceDate DateTime.ofFields
  rw [dif_pos h, dif_pos t.isTime]
  rfl

/-- The next day has the next number. -/
theorem toOrdinal_nextDay {t t' : DateTime} (h : nextDay t = some t') :
    toOrdinal t' = toOrdinal t + 1 ∧ SameTime t t' := by
  have hdate := t.isDate
  have hmonth := daysBeforeMonth_succ t.year hdate.2.2.1
  have hyear := daysBeforeYear_succ hdate.1
  unfold nextDay at h
  split_ifs at h with hday hlast
  · obtain ⟨hy, hm, hd, htime⟩ := replaceDate_eq_some h
    refine ⟨?_, htime⟩
    rw [toOrdinal, toOrdinal, hy, hm, hd]
    omega
  · obtain ⟨hy, hm, hd, htime⟩ := replaceDate_eq_some h
    refine ⟨?_, htime⟩
    rw [toOrdinal, toOrdinal, hy, hm, hd, hmonth]
    omega
  · obtain ⟨hy, hm, hd, htime⟩ := replaceDate_eq_some h
    refine ⟨?_, htime⟩
    have hdecember : t.month = 12 := by omega
    rw [hdecember] at hmonth hday
    rw [toOrdinal, toOrdinal, hy, hm, hd, hdecember, hyear, hmonth, daysBeforeMonth]
    rw [hdecember] at hdate
    omega

/-- The day before has the number before. -/
theorem toOrdinal_previousDay {t t' : DateTime} (h : previousDay t = some t') :
    toOrdinal t' + 1 = toOrdinal t ∧ SameTime t t' := by
  have hdate := t.isDate
  have hdate' := t'.isDate
  unfold previousDay at h
  split_ifs at h with hday hfirst
  · obtain ⟨hy, hm, hd, htime⟩ := replaceDate_eq_some h
    refine ⟨?_, htime⟩
    rw [toOrdinal, toOrdinal, hy, hm, hd]
    omega
  · obtain ⟨hy, hm, hd, htime⟩ := replaceDate_eq_some h
    refine ⟨?_, htime⟩
    have hmonth := daysBeforeMonth_succ t.year (m := t.month - 1) (by omega)
    rw [Nat.sub_add_cancel hdate.2.2.1] at hmonth
    rw [toOrdinal, toOrdinal, hy, hm, hd, hmonth]
    omega
  · obtain ⟨hy, hm, hd, htime⟩ := replaceDate_eq_some h
    refine ⟨?_, htime⟩
    have hyear : daysBeforeYear (t.year - 1 + 1) =
        daysBeforeYear (t.year - 1) + daysBeforeMonth (t.year - 1) 13 :=
      daysBeforeYear_succ (by omega)
    have hmonth := daysBeforeMonth_succ (t.year - 1) (m := 12) (by omega)
    have hdecember : daysInMonth (t.year - 1) 12 = 31 := rfl
    have hjanuary : t.month = 1 := by omega
    rw [Nat.sub_add_cancel hdate.1, hmonth, hdecember] at hyear
    rw [toOrdinal, toOrdinal, hy, hm, hd, hyear, hjanuary, daysBeforeMonth]
    omega

theorem toOrdinal_addDays {n : ℕ} {t t' : DateTime} (h : addDays n t = some t') :
    toOrdinal t' = toOrdinal t + n ∧ SameTime t t' := by
  induction n generalizing t with
  | zero =>
    cases h
    exact ⟨rfl, rfl, rfl, rfl, rfl⟩
  | succ n ih =>
    obtain ⟨next, hnext, hrest⟩ := Option.bind_eq_some_iff.mp h
    have hone := toOrdinal_nextDay hnext
    have hmany := ih hrest
    exact ⟨by omega, hone.2.trans hmany.2⟩

theorem toOrdinal_subDays {n : ℕ} {t t' : DateTime} (h : subDays n t = some t') :
    toOrdinal t' + n = toOrdinal t ∧ SameTime t t' := by
  induction n generalizing t with
  | zero =>
    cases h
    exact ⟨rfl, rfl, rfl, rfl, rfl⟩
  | succ n ih =>
    obtain ⟨previous, hprevious, hrest⟩ := Option.bind_eq_some_iff.mp h
    have hone := toOrdinal_previousDay hprevious
    have hmany := ih hrest
    exact ⟨by omega, hone.2.trans hmany.2⟩

/-- Every day but the last one of the calendar has a next one. -/
theorem nextDay_isSome {t : DateTime} (h : toOrdinal t < 3652059) : (nextDay t).isSome := by
  have hdate := t.isDate
  unfold nextDay
  split_ifs with hday hlast
  · exact replaceDate_isSome t (by omega)
  · have hpos : 1 ≤ daysInMonth t.year (t.month + 1) := by
      unfold daysInMonth
      split_ifs <;> omega
    exact replaceDate_isSome t (by omega)
  · have hyear : t.year ≠ 9999 := by
      intro hyear
      have hmonth : t.month = 12 := by omega
      have hdecember : daysInMonth 9999 12 = 31 := rfl
      have hbefore : daysBeforeYear 9999 + daysBeforeMonth 9999 12 = 3652028 := by decide
      rw [hyear, hmonth] at hdate hday
      rw [toOrdinal, hyear, hmonth] at h
      omega
    have hjanuary : daysInMonth (t.year + 1) 1 = 31 := rfl
    exact replaceDate_isSome t (by omega)

/-- Every day but the first one of the calendar has one before it. -/
theorem previousDay_isSome {t : DateTime} (h : 1 < toOrdinal t) : (previousDay t).isSome := by
  have hdate := t.isDate
  unfold previousDay
  split_ifs with hday hfirst
  · exact replaceDate_isSome t (by omega)
  · have hpos : 1 ≤ daysInMonth t.year (t.month - 1) := by
      unfold daysInMonth
      split_ifs <;> omega
    exact replaceDate_isSome t (by omega)
  · have hyear : t.year ≠ 1 := by
      intro hyear
      have hmonth : t.month = 1 := by omega
      have hbefore : daysBeforeYear 1 + daysBeforeMonth 1 1 = 0 := rfl
      rw [toOrdinal, hyear, hmonth] at h
      omega
    have hdecember : daysInMonth (t.year - 1) 12 = 31 := rfl
    exact replaceDate_isSome t (by omega)

theorem addDays_isSome {n : ℕ} {t : DateTime} (h : toOrdinal t + n ≤ 3652059) :
    (addDays n t).isSome := by
  induction n generalizing t with
  | zero => rfl
  | succ n ih =>
    obtain ⟨next, hnext⟩ := Option.isSome_iff_exists.mp (nextDay_isSome (t := t) (by omega))
    have hone := (toOrdinal_nextDay hnext).1
    rw [addDays, hnext, Option.bind_some]
    exact ih (by omega)

theorem subDays_isSome {n : ℕ} {t : DateTime} (h : n < toOrdinal t) : (subDays n t).isSome := by
  induction n generalizing t with
  | zero => rfl
  | succ n ih =>
    obtain ⟨previous, hprevious⟩ := Option.isSome_iff_exists.mp (previousDay_isSome (t := t) (by omega))
    have hone := (toOrdinal_previousDay hprevious).1
    rw [subDays, hprevious, Option.bind_some]
    exact ih (by omega)

end Munavvar.Calendar
