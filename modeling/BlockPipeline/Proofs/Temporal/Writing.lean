import BlockPipeline.Proofs.Number.Integer
import BlockPipeline.Proofs.Temporal.Calendar
import BlockPipeline.Proofs.Text.Stops
import BlockPipeline.Temporal.Timestamp
import Mathlib.Data.List.DropRight

set_option autoImplicit false

/-! # How dates and instants are written

`Date.Written` and `Timestamp.Written` say what a text has to look like to be that of a date or an
instant, by its digits and marks alone. The text that is made of an instant is one of these
(`written_text`), and what is read from any of these is the instant (`ofText?_written`). -/

namespace BlockPipeline.Temporal

open Text (Digits)

/-! ## Dates -/

namespace Date

/-- A year is written with four digits. One before year 0 has a sign and six digits. -/
inductive YearWritten : Int → List Char → Prop where
  | plain {year : Nat} {text : List Char} (h : Digits 4 year text) : YearWritten year text
  | signed {year : Nat} {text : List Char} (before : 0 < year) (h : Digits 6 year text) :
    YearWritten (-year) ('-' :: text)

/-- A date is written with hyphens between year, month and day. -/
inductive Written (date : Date) : List Char → Prop where
  | mk {year month day : List Char} (hyear : YearWritten date.year year)
    (hmonth : Digits 2 date.month month) (hday : Digits 2 date.day day) :
    Written date (year ++ '-' :: month ++ '-' :: day)

variable {date : Date}

theorem yearWritten_padDigits {year : Int} (hfirst : -9999 ≤ year) (hlast : year ≤ 9999) :
    YearWritten year (if year < 0 then '-' :: Text.padDigits 6 year.natAbs
      else Text.padDigits 4 year.natAbs) := by
  split
  · have hdigits : Digits 6 year.natAbs _ := Text.digits_padDigits (by decide) (by omega)
    have h := YearWritten.signed (by omega) hdigits
    rwa [show -(year.natAbs : Int) = year by omega] at h
  · have hdigits : Digits 4 year.natAbs _ := Text.digits_padDigits (by decide) (by omega)
    have h := YearWritten.plain hdigits
    rwa [show (year.natAbs : Int) = year by omega] at h

theorem daysInMonth_le (year : Int) (month : Nat) : daysInMonth year month ≤ 31 := by
  rw [daysInMonth]
  split_ifs <;> decide

theorem written_text (h : date.isValid = true) (hfirst : -9999 ≤ date.year)
    (hlast : date.year ≤ 9999) : date.Written date.text.toList := by
  obtain ⟨-, hmonth, -, hday⟩ := isValid_iff.1 h
  have hbound := daysInMonth_le date.year date.month
  rw [text, String.toList_ofList]
  exact .mk (yearWritten_padDigits hfirst hlast) (Text.digits_padDigits (by decide) (by omega))
    (Text.digits_padDigits (by decide) (by omega))

end Date

/-! ## Times of day -/

/-- The time that a clock shows, up to the nanosecond. -/
structure Clock where
  hour : Nat
  minute : Nat
  second : Nat
  nanos : Nat

namespace Clock

/-- The nanoseconds since midnight. -/
def sinceMidnight (clock : Clock) : Int :=
  ((clock.hour * 60 + clock.minute) * 60 + clock.second : Nat) * nanosPerSecond + clock.nanos

/-- Is it a time of a day? -/
structure Valid (clock : Clock) : Prop where
  hour : clock.hour < 24
  minute : clock.minute < 60
  second : clock.second < 60
  nanos : clock.nanos < 10 ^ 9

/-- A fraction of a second is written behind a point, without zeros at its end, and no fraction is not
    written at all. -/
inductive FractionWritten (nanos : Nat) : List Char → Prop where
  | whole (h : nanos = 0) : FractionWritten nanos []
  | point {digits : List Char} (hne : digits ≠ []) (hlength : digits.length ≤ 9)
    (hdigits : Number.AllDigits digits) (hlast : digits.getLast hne ≠ '0')
    (hvalue : Nat.ofDigitChars 10 digits 0 * 10 ^ (9 - digits.length) = nanos) :
    FractionWritten nanos ('.' :: digits)

/-- A time is written with colons between hour, minute and second. -/
inductive Written (clock : Clock) : List Char → Prop where
  | mk {hour minute second fraction : List Char} (hhour : Digits 2 clock.hour hour)
    (hminute : Digits 2 clock.minute minute) (hsecond : Digits 2 clock.second second)
    (hfraction : FractionWritten clock.nanos fraction) :
    Written clock (hour ++ ':' :: (minute ++ ':' :: (second ++ fraction)))

theorem fractionWritten_fractionDigits {nanos : Nat} (hne : nanos ≠ 0) (h : nanos < 10 ^ 9) :
    FractionWritten nanos ('.' :: Timestamp.fractionDigits nanos) := by
  obtain ⟨hlength, hdigits, hvalue⟩ := Text.digits_padDigits (by decide : 0 < 9) h
  let zeros := (Text.padDigits 9 nanos).rtakeWhile (· == '0')
  have hsplit : Timestamp.fractionDigits nanos ++ zeros = Text.padDigits 9 nanos :=
    List.rdropWhile_append_rtakeWhile
  have hzeros : zeros = List.replicate zeros.length '0' := by
    refine List.eq_replicate_of_mem fun c hc => ?_
    simpa using List.mem_rtakeWhile_imp hc
  rw [← hsplit, List.length_append] at hlength
  rw [← hsplit, Nat.ofDigitChars_append, hzeros, Nat.ofDigitChars_replicate_zero, mul_comm] at hvalue
  have hsome : Timestamp.fractionDigits nanos ≠ [] := by
    intro hnil
    rw [hnil, Nat.ofDigitChars_nil, Nat.zero_mul] at hvalue
    exact hne hvalue.symm
  refine .point hsome (by omega) ?_ ?_ ?_
  · exact fun c hc => hdigits c (hsplit ▸ List.mem_append_left _ hc)
  · have hlast := List.rdropWhile_last_not (· == '0') _ hsome
    rwa [beq_iff_eq] at hlast
  · rwa [show 9 - (Timestamp.fractionDigits nanos).length = zeros.length by omega]

theorem written_padDigits {clock : Clock} (h : clock.Valid) : clock.Written
    (Text.padDigits 2 clock.hour ++ ':' :: (Text.padDigits 2 clock.minute ++ ':' ::
      (Text.padDigits 2 clock.second ++
        if clock.nanos = 0 then [] else '.' :: Timestamp.fractionDigits clock.nanos))) := by
  obtain ⟨hhour, hminute, hsecond, hnanos⟩ := h
  refine .mk (Text.digits_padDigits (by decide) (by omega)) (Text.digits_padDigits (by decide) (by omega))
    (Text.digits_padDigits (by decide) (by omega)) ?_
  split
  case isTrue hzero => exact .whole hzero
  case isFalse hne => exact fractionWritten_fractionDigits hne hnanos

end Clock

/-! ## Instants -/

namespace Timestamp

/-- The date and the time of day of an instant in universal time. -/
inductive Shows (t : Timestamp) (date : Date) (clock : Clock) : Prop where
  | mk (days : Int) (hdate : Date.Falls days date) (hclock : clock.Valid)
    (hnanos : t.nanos = days * 86400 * nanosPerSecond + clock.sinceMidnight)

/-- An instant is written as its date and its time, with a `T` between them and a `Z` behind. -/
inductive Written (t : Timestamp) : List Char → Prop where
  | mk {date : Date} {clock : Clock} {day time : List Char} (h : t.Shows date clock)
    (hdate : date.Written day) (htime : clock.Written time) :
    Written t (day ++ 'T' :: (time ++ ['Z']))

/-- The time of day of an instant. -/
def clock (t : Timestamp) : Clock where
  hour := (t.nanos / nanosPerSecond % 86400).toNat / 3600
  minute := (t.nanos / nanosPerSecond % 86400).toNat / 60 % 60
  second := (t.nanos / nanosPerSecond % 86400).toNat % 60
  nanos := (t.nanos % nanosPerSecond).toNat

theorem valid_clock (t : Timestamp) : t.clock.Valid := by
  constructor <;> simp only [clock, nanosPerSecond] <;> omega

theorem shows_clock (t : Timestamp) :
    t.Shows (Date.ofDays (t.nanos / nanosPerSecond / 86400)) t.clock := by
  refine ⟨_, Date.falls_ofDays _, t.valid_clock, ?_⟩
  simp only [clock, Clock.sinceMidnight, nanosPerSecond]
  omega

theorem written_text {t : Timestamp} (h : t.inRange = true) : t.Written t.text.toList := by
  have hdays : Date.firstDay ≤ t.nanos / nanosPerSecond / 86400 ∧
      t.nanos / nanosPerSecond / 86400 ≤ Date.lastDay := by
    rw [inRange, decide_eq_true_iff, first, last, nanosPerSecond] at h
    rw [Date.firstDay, Date.lastDay, nanosPerSecond]
    omega
  obtain ⟨hfirst, hlast⟩ := (Date.shown_iff _).1 hdays
  have hdate := Date.written_text (Date.isValid_ofDays _) hfirst hlast
  convert Written.mk t.shows_clock hdate (Clock.written_padDigits t.valid_clock) using 1
  simp [text, clock]

/-! ## Reading -/

theorem digits?_append {width n : Nat} {text : List Char} (h : Digits width n text)
    (rest : List Char) : digits? width (text ++ rest) = some (n, rest) := by
  have htake : (text ++ rest).take width = text := by
    rw [← h.length, List.take_left]
  have hdrop : (text ++ rest).drop width = rest := by
    rw [← h.length, List.drop_left]
  rw [digits?, htake, hdrop, if_pos ⟨h.length, List.all_eq_true.2 h.digits⟩, h.value]

theorem readYear?_append {year : Int} {text : List Char} (h : Date.YearWritten year text)
    (rest : List Char) : readYear? (text ++ rest) = some (year, rest) := by
  cases h with
  | signed before h =>
    simp [readYear?, digits?_append h]
    omega
  | plain h =>
    obtain ⟨c, digits, rfl, hc⟩ := h.exists_cons
    have hminus : c ≠ '-' := by rintro rfl; cases hc
    have hplus : c ≠ '+' := by rintro rfl; cases hc
    have hdigits := digits?_append h rest
    rw [List.cons_append] at hdigits ⊢
    simp [readYear?, hminus, hplus, hdigits]

theorem readDate?_append {date : Date} {text : List Char} (h : date.Written text)
    (hvalid : date.isValid = true) (hfirst : -9999 ≤ date.year) (hlast : date.year ≤ 9999)
    (rest : List Char) : readDate? (text ++ rest) = some (date, rest) := by
  cases h with
  | @mk year month day hyear hmonth hday =>
    have hreadYear := readYear?_append hyear ('-' :: (month ++ '-' :: (day ++ rest)))
    have hreadMonth := digits?_append hmonth ('-' :: (day ++ rest))
    have hreadDay := digits?_append hday rest
    simp [readDate?, hreadYear, hreadMonth, hreadDay, separator?, hvalid, hfirst, hlast]

theorem readFraction?_append {nanos : Nat} {text : List Char} (h : Clock.FractionWritten nanos text)
    (rest : List Char) : readFraction? (text ++ 'Z' :: rest) = some (nanos, 'Z' :: rest) := by
  cases h with
  | whole h =>
    subst h
    rfl
  | point hne hlength hdigits hlast hvalue =>
    have hstops : Text.Stops Char.isDigit ('Z' :: rest) := Text.stops_cons rfl rest
    have htake := hstops.takeWhile_append hdigits
    have hdrop := hstops.dropWhile_append hdigits
    simp only [List.cons_append, readFraction?, htake, hdrop]
    rw [if_neg (by simp [hne]; omega)]
    simp [← hvalue]

theorem readTime?_append {clock : Clock} {text : List Char} (h : clock.Written text)
    (hvalid : clock.Valid) (rest : List Char) :
    readTime? (text ++ 'Z' :: rest) = some (clock.sinceMidnight, 'Z' :: rest) := by
  obtain ⟨hhour, hminute, hsecond, -⟩ := hvalid
  cases h with
  | @mk hour minute second fraction hourDigits minuteDigits secondDigits hfraction =>
    have hreadHour := digits?_append hourDigits
      (':' :: (minute ++ ':' :: (second ++ (fraction ++ 'Z' :: rest))))
    have hreadMinute := digits?_append minuteDigits (':' :: (second ++ (fraction ++ 'Z' :: rest)))
    have hreadSecond := digits?_append secondDigits (fraction ++ 'Z' :: rest)
    have hreadFraction := readFraction?_append hfraction rest
    simp [readTime?, hreadHour, hreadMinute, hreadSecond, hreadFraction, separator?, partFollows,
      Clock.sinceMidnight]
    omega

/-- Whatever is written of an instant, the instant is read back. -/
theorem ofText?_written {t : Timestamp} {text : String} (h : t.Written text.toList)
    (hrange : t.inRange = true) : ofText? text = some t := by
  generalize htext : text.toList = cs at h
  cases h with
  | @mk date clock day time hshows hdate htime =>
    obtain ⟨days, hfalls, hclock, hnanos⟩ := hshows
    obtain rfl := Date.falls_iff.1 hfalls
    obtain ⟨hfirst, hlast⟩ : -9999 ≤ (Date.ofDays days).year ∧ (Date.ofDays days).year ≤ 9999 := by
      obtain ⟨hhour, hminute, hsecond, hfraction⟩ := hclock
      rw [inRange, decide_eq_true_iff, first, last, hnanos] at hrange
      rw [← Date.shown_iff, Date.firstDay, Date.lastDay]
      rw [Clock.sinceMidnight, nanosPerSecond] at *
      omega
    have hreadDate := readDate?_append hdate (Date.isValid_ofDays days) hfirst hlast
      ('T' :: (time ++ ['Z']))
    have hreadTime := readTime?_append htime hclock []
    have hreadOffset : readOffset? ['Z'] = some (0, []) := rfl
    simp [ofText?, htext, hreadDate, hreadTime, hreadOffset, Date.toDays_ofDays, ← hnanos, hrange]

theorem ofText?_text {t : Timestamp} (h : t.inRange = true) : ofText? t.text = some t :=
  ofText?_written (written_text h) h

end Timestamp

end BlockPipeline.Temporal
