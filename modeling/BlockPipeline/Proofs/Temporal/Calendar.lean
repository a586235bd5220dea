import BlockPipeline.Temporal.Date
import Mathlib.Tactic.IntervalCases

set_option autoImplicit false

/-! # Counting days

The calendar says of each date which one comes next (`Date.next`), and of no date that it comes first
or last. `Date.Falls` counts days by that alone, from 1970-01-01 in both directions.

The computation by eras comes to the same (`falls_iff`). One direction is a matter of adding up: a
date and the next one have numbers that differ by one (`toDays_next`). The other one is to find the
year of a day again (`yearOfEra_of_days`). A division by the days of a common year is off by as many
days as there were leap days before, which the lengths of four years, of a century and of an era
correct. -/

namespace BlockPipeline.Temporal.Date

/-! ## The calendar -/

/-- The date of the day after. -/
def next (date : Date) : Date :=
  if date.day < daysInMonth date.year date.month then { date with day := date.day + 1 }
  else if date.month < 12 then ⟨date.year, date.month + 1, 1⟩
  else ⟨date.year + 1, 1, 1⟩

/-- The date of the day that is so many days after 1970-01-01, or before it if the number is negative. -/
inductive Falls : Int → Date → Prop where
  | epoch : Falls 0 ⟨1970, 1, 1⟩
  | next {days : Int} {date : Date} (h : Falls days date) : Falls (days + 1) date.next
  | previous {days : Int} {date : Date} (valid : date.isValid = true)
    (h : Falls (days + 1) date.next) : Falls days date

variable {date : Date} {days : Int}

theorem isValid_iff : date.isValid = true ↔ 1 ≤ date.month ∧ date.month ≤ 12 ∧ 1 ≤ date.day ∧
    date.day ≤ daysInMonth date.year date.month := by
  rw [isValid, decide_eq_true_iff]

theorem isLeapYear_iff (year : Int) :
    isLeapYear year = true ↔ year % 4 = 0 ∧ (year % 100 ≠ 0 ∨ year % 400 = 0) := by
  rw [isLeapYear, decide_eq_true_iff]

theorem daysInMonth_pos (year : Int) (month : Nat) : 0 < daysInMonth year month := by
  rw [daysInMonth]
  split_ifs <;> decide

theorem isValid_next (h : date.isValid = true) : date.next.isValid = true := by
  obtain ⟨hfirst, hlast, hday, hbound⟩ := isValid_iff.1 h
  have hlength := daysInMonth_pos
  rw [isValid_iff, next]
  split_ifs <;> grind

/-- No date comes first. -/
theorem exists_next_eq (h : date.isValid = true) :
    ∃ before : Date, before.isValid = true ∧ before.next = date := by
  obtain ⟨year, month, day⟩ := date
  obtain ⟨hfirst, hlast, hday, hbound⟩ :
    1 ≤ month ∧ month ≤ 12 ∧ 1 ≤ day ∧ day ≤ daysInMonth year month := isValid_iff.1 h
  have hlength := daysInMonth_pos
  by_cases hstart : day = 1
  · by_cases hnewYear : month = 1
    · refine ⟨⟨year - 1, 12, 31⟩, by simp [isValid, daysInMonth], ?_⟩
      simp [next, daysInMonth, hstart, hnewYear]
    · refine ⟨⟨year, month - 1, daysInMonth year (month - 1)⟩, ?_, ?_⟩
      · rw [isValid_iff]
        grind
      · rw [next]
        grind
  · refine ⟨⟨year, month, day - 1⟩, ?_, ?_⟩
    · rw [isValid_iff]
      grind
    · rw [next]
      grind

/-! ## Years that begin in March -/

/-- The months since March. -/
def monthFromMarch (date : Date) : Int := ((date.month + 9) % 12 : Nat)

/-- The year that begins in March and has the date. -/
def yearFromMarch (date : Date) : Int := if date.month ≤ 2 then date.year - 1 else date.year

/-- The days since the first of March. -/
def dayOfYear (date : Date) : Int := (153 * date.monthFromMarch + 2) / 5 + date.day - 1

theorem toDays_eq (date : Date) : date.toDays =
    365 * date.yearFromMarch + date.yearFromMarch / 4 - date.yearFromMarch / 100 +
      date.yearFromMarch / 400 + date.dayOfYear - epochOffset := by
  rw [toDays, ← yearFromMarch, ← monthFromMarch, dayOfYear, daysPerEra]
  omega

theorem monthFromMarch_eq (h : date.isValid = true) :
    date.monthFromMarch = if date.month ≤ 2 then date.month + 9 else date.month - 3 := by
  obtain ⟨hfirst, hlast, -, -⟩ := isValid_iff.1 h
  rw [monthFromMarch]
  split <;> omega

/-- From month to month, three fifths of a day come on top of thirty days. The leap day is the last one
    of its year, and the only one with its number. -/
theorem dayOfYear_spec (h : date.isValid = true) :
    (0 ≤ date.dayOfYear ∧ date.dayOfYear ≤ 365) ∧
      (date.dayOfYear = 365 → date.month = 2 ∧ isLeapYear date.year = true) ∧
      (5 * date.dayOfYear + 2) / 153 = date.monthFromMarch := by
  obtain ⟨year, month, day⟩ := date
  obtain ⟨hfirst, hlast, hday, hbound⟩ :
    1 ≤ month ∧ month ≤ 12 ∧ 1 ≤ day ∧ day ≤ daysInMonth year month := isValid_iff.1 h
  rw [daysInMonth] at hbound
  simp only [dayOfYear, monthFromMarch]
  interval_cases month
  case «2» => cases hleap : isLeapYear year <;> simp [hleap] at hbound ⊢ <;> omega
  all_goals simp at hbound ⊢; omega

/-! ## From a date to the next one -/

theorem toDays_day (year : Int) (month day : Nat) :
    toDays ⟨year, month, day⟩ = toDays ⟨year, month, 1⟩ + (day - 1) := by
  simp only [toDays_eq, yearFromMarch, dayOfYear, monthFromMarch]
  omega

/-- A month ends where the next one begins. -/
theorem toDays_nextMonth {year : Int} {month : Nat} (hfirst : 1 ≤ month) (hlast : month < 12) :
    toDays ⟨year, month + 1, 1⟩ = toDays ⟨year, month, 1⟩ + daysInMonth year month := by
  have hleap := isLeapYear_iff year
  simp only [toDays_eq, yearFromMarch, dayOfYear, monthFromMarch, daysInMonth]
  interval_cases month
  case «2» => cases h : isLeapYear year <;> simp [h] at hleap ⊢ <;> omega
  all_goals simp; omega

theorem toDays_nextYear (year : Int) :
    toDays ⟨year + 1, 1, 1⟩ = toDays ⟨year, 12, 1⟩ + daysInMonth year 12 := by
  simp [toDays_eq, yearFromMarch, dayOfYear, monthFromMarch, daysInMonth]
  omega

theorem toDays_next (h : date.isValid = true) : date.next.toDays = date.toDays + 1 := by
  obtain ⟨year, month, day⟩ := date
  obtain ⟨hfirst, hlast, hday, hbound⟩ :
    1 ≤ month ∧ month ≤ 12 ∧ 1 ≤ day ∧ day ≤ daysInMonth year month := isValid_iff.1 h
  rw [toDays_day year month day, next]
  split_ifs with hwithin hmonth <;> dsimp only at *
  · rw [toDays_day]
    omega
  · rw [toDays_nextMonth hfirst hmonth]
    omega
  · obtain rfl : month = 12 := by omega
    rw [toDays_nextYear]
    omega

/-! ## From a number to its date -/

/-- The year of a day of an era. The day is cut up into centuries, spans of four years, years and the
    days of the last year; the last year of four has a leap day, unless it ends a century before the
    last. -/
theorem yearOfEra_eq {century span year day dayOfEra : Int} (hcentury : 0 ≤ century ∧ century ≤ 3)
    (hspan : 0 ≤ span ∧ span ≤ 24) (hyear : 0 ≤ year ∧ year ≤ 3) (hday : 0 ≤ day ∧ day ≤ 365)
    (hleap : day = 365 → year = 3 ∧ (span < 24 ∨ century = 3))
    (h : dayOfEra = 36524 * century + 1461 * span + 365 * year + day) :
    (dayOfEra - dayOfEra / 1460 + dayOfEra / 36524 - dayOfEra / 146096) / 365 =
      100 * century + 4 * span + year := by
  have hleaps : dayOfEra / 1460 =
      25 * century + span + (24 * century + span + 365 * year + day) / 1460 := by omega
  have hcenturies : dayOfEra / 36524 - dayOfEra / 146096 = century := by
    -- only the last day of the era lies behind the days of its century
    have hlast : dayOfEra ≤ 36524 * century + 36523 ∨ (century = 3 ∧ dayOfEra = 146096) := by
      by_cases hfull : day = 365
      · obtain ⟨rfl, -⟩ := hleap hfull
        omega
      · have : 1461 * span + 365 * year + day ≤ 36523 := by omega
        exact .inl (by omega)
    obtain hwithin | ⟨rfl, rfl⟩ := hlast
    · have : dayOfEra / 36524 = century := by omega
      have : dayOfEra / 146096 = 0 := by omega
      omega
    · rfl
  omega

/-- The number of a day of an era tells its year. -/
theorem yearOfEra_of_days {year day dayOfEra : Int} (hyear : 0 ≤ year ∧ year ≤ 399)
    (hday : 0 ≤ day ∧ day ≤ 365) (hleap : day = 365 → year % 4 = 3 ∧ (year % 100 < 99 ∨ year = 399))
    (h : dayOfEra = 365 * year + year / 4 - year / 100 + day) :
    (0 ≤ dayOfEra ∧ dayOfEra < daysPerEra) ∧
      (dayOfEra - dayOfEra / 1460 + dayOfEra / 36524 - dayOfEra / 146096) / 365 = year := by
  have hrange : 0 ≤ dayOfEra ∧ dayOfEra < 146097 := by omega
  have hparts : dayOfEra =
      36524 * (year / 100) + 1461 * (year % 100 / 4) + 365 * (year % 4) + day := by omega
  have hsum : 100 * (year / 100) + 4 * (year % 100 / 4) + year % 4 = year := by omega
  have hlast : day = 365 → year % 4 = 3 ∧ (year % 100 / 4 < 24 ∨ year / 100 = 3) := by omega
  refine ⟨hrange, (yearOfEra_eq ?_ ?_ ?_ hday hlast hparts).trans hsum⟩ <;> omega

/-- The number of the day in its era, counted from the first of March. -/
def dayOfEra (date : Date) : Int :=
  365 * (date.yearFromMarch % 400) + date.yearFromMarch % 400 / 4 - date.yearFromMarch % 400 / 100 +
    date.dayOfYear

theorem toDays_add_epochOffset (date : Date) :
    date.toDays + epochOffset = date.yearFromMarch / 400 * daysPerEra + date.dayOfEra := by
  rw [toDays_eq, dayOfEra, daysPerEra]
  omega

theorem dayOfEra_spec (h : date.isValid = true) :
    (0 ≤ date.dayOfEra ∧ date.dayOfEra < daysPerEra) ∧
      (date.dayOfEra - date.dayOfEra / 1460 + date.dayOfEra / 36524 - date.dayOfEra / 146096) / 365 =
        date.yearFromMarch % 400 := by
  obtain ⟨hrange, hleap, -⟩ := dayOfYear_spec h
  have hfull : date.dayOfYear = 365 → date.yearFromMarch % 400 % 4 = 3 ∧
      (date.yearFromMarch % 400 % 100 < 99 ∨ date.yearFromMarch % 400 = 399) := by
    intro hfull
    obtain ⟨hfebruary, hleap⟩ := hleap hfull
    rw [isLeapYear_iff] at hleap
    rw [yearFromMarch, hfebruary, if_pos le_rfl]
    omega
  exact yearOfEra_of_days (by omega) hrange hfull rfl

theorem month_of_monthFromMarch (h : date.isValid = true) :
    (if date.monthFromMarch < 10 then date.monthFromMarch + 3 else date.monthFromMarch - 9) =
      date.month := by
  obtain ⟨hfirst, hlast, -, -⟩ := isValid_iff.1 h
  rw [monthFromMarch_eq h]
  split_ifs <;> omega

theorem year_of_yearFromMarch (date : Date) :
    (if (date.month : Int) ≤ 2 then date.yearFromMarch + 1 else date.yearFromMarch) = date.year := by
  rw [yearFromMarch]
  split_ifs <;> omega

theorem ofDays_toDays (h : date.isValid = true) : ofDays date.toDays = date := by
  obtain ⟨hera, hyear⟩ := dayOfEra_spec h
  obtain ⟨-, -, hmonth⟩ := dayOfYear_spec h
  have hquotient : (date.toDays + epochOffset) / daysPerEra = date.yearFromMarch / 400 := by
    rw [daysPerEra] at hera
    rw [toDays_add_epochOffset, daysPerEra]
    omega
  have hremainder : (date.toDays + epochOffset) % daysPerEra = date.dayOfEra := by
    rw [toDays_add_epochOffset, Int.add_comm, Int.add_mul_emod_self_right, Int.emod_eq_of_lt hera.1 hera.2]
  have hdayOfYear : date.dayOfEra - (365 * (date.yearFromMarch % 400) + date.yearFromMarch % 400 / 4 -
      date.yearFromMarch % 400 / 100) = date.dayOfYear := by
    rw [dayOfEra]
    omega
  have hday : date.dayOfYear - (153 * date.monthFromMarch + 2) / 5 + 1 = date.day := by
    rw [dayOfYear]
    omega
  simp only [ofDays, hquotient, hremainder, hyear, hdayOfYear, hmonth, hday, month_of_monthFromMarch h]
  rw [Int.emod_add_ediv_mul, year_of_yearFromMarch, Int.toNat_natCast, Int.toNat_natCast]

/-! ## Every day has a date -/

theorem exists_toDays_eq (days : Int) : ∃ date : Date, date.isValid = true ∧ date.toDays = days := by
  induction days using Int.induction_on with
  | zero => exact ⟨⟨1970, 1, 1⟩, by decide, by decide⟩
  | succ n ih =>
    obtain ⟨date, hvalid, hdays⟩ := ih
    exact ⟨date.next, isValid_next hvalid, by rw [toDays_next hvalid, hdays]⟩
  | pred n ih =>
    obtain ⟨date, hvalid, hdays⟩ := ih
    obtain ⟨before, hbefore, rfl⟩ := exists_next_eq hvalid
    rw [toDays_next hbefore] at hdays
    exact ⟨before, hbefore, by omega⟩

theorem isValid_ofDays (days : Int) : (ofDays days).isValid = true := by
  obtain ⟨date, hvalid, rfl⟩ := exists_toDays_eq days
  rwa [ofDays_toDays hvalid]

theorem toDays_ofDays (days : Int) : (ofDays days).toDays = days := by
  obtain ⟨date, hvalid, rfl⟩ := exists_toDays_eq days
  rw [ofDays_toDays hvalid]

theorem ofDays_add_one (days : Int) : ofDays (days + 1) = (ofDays days).next := by
  have hvalid := isValid_ofDays days
  rw [← ofDays_toDays (isValid_next hvalid), toDays_next hvalid, toDays_ofDays]

theorem falls_ofDays (days : Int) : Falls days (ofDays days) := by
  induction days using Int.induction_on with
  | zero => exact .epoch
  | succ n ih => exact ofDays_add_one _ ▸ ih.next
  | pred n ih =>
    refine .previous (isValid_ofDays _) ?_
    rwa [← ofDays_add_one, Int.sub_add_cancel]

/-- The date of a day is the one that the computation finds, and no other one. -/
theorem falls_iff : Falls days date ↔ date = ofDays days := by
  refine ⟨fun h => ?_, fun h => h ▸ falls_ofDays days⟩
  induction h with
  | epoch => decide
  | next _ ih => rw [ih, ofDays_add_one]
  | @previous days date hvalid _ ih =>
    have hnext : days + 1 = date.toDays + 1 := by
      rw [← toDays_next hvalid, ih, toDays_ofDays]
    rw [show days = date.toDays by omega, ofDays_toDays hvalid]

/-- The days that are shown are those of the years from -9999 to 9999. -/
theorem shown_iff (days : Int) : (firstDay ≤ days ∧ days ≤ lastDay) ↔
    -9999 ≤ (ofDays days).year ∧ (ofDays days).year ≤ 9999 := by
  have hvalid := isValid_ofDays days
  have hdays := toDays_ofDays days
  generalize ofDays days = date at hvalid hdays
  subst hdays
  obtain ⟨hfirst, hlast, hday, -⟩ := isValid_iff.1 hvalid
  obtain ⟨hrange, -, hmonth⟩ := dayOfYear_spec hvalid
  rw [monthFromMarch_eq hvalid] at hmonth
  rw [toDays_eq, firstDay, lastDay, epochOffset, yearFromMarch]
  split_ifs at hmonth ⊢ <;> omega

end BlockPipeline.Temporal.Date
