import BlockPipeline.Temporal.Date

set_option autoImplicit false

/-! # Timestamps

A timestamp is a number of nanoseconds since the beginning of 1970 in universal time. It is written as
RFC 3339 has it, with as many digits of the second as are not zero. -/

namespace BlockPipeline.Temporal

/-- The nanoseconds of a second. -/
def nanosPerSecond : Int := 1000000000

/-- An instant. -/
structure Timestamp where
  nanos : Int
  deriving DecidableEq, Inhabited

namespace Timestamp

/-- The whole milliseconds since 1970, or zero before. -/
def milliseconds (t : Timestamp) : Nat := (t.nanos / 1000000).toNat

/-- The first instant that is shown. -/
def first : Int := -377705023201 * nanosPerSecond

/-- The last instant that is shown. -/
def last : Int := 253402207200 * nanosPerSecond + 999999999

/-- Can the instant be shown? -/
def inRange (t : Timestamp) : Bool := first ≤ t.nanos ∧ t.nanos ≤ last

/-- The digits of a fraction of a second behind its point, without zeros at the end. -/
def fractionDigits (nanos : Nat) : List Char :=
  ((Text.padDigits 9 nanos).reverse.dropWhile (· == '0')).reverse

/-- The text of an instant. -/
def text (t : Timestamp) : String :=
  let seconds := t.nanos / nanosPerSecond
  let fraction := (t.nanos % nanosPerSecond).toNat
  let secondOfDay := (seconds % 86400).toNat
  let time := Text.padDigits 2 (secondOfDay / 3600) ++ ':' ::
    Text.padDigits 2 (secondOfDay / 60 % 60) ++ ':' :: Text.padDigits 2 (secondOfDay % 60)
  let tail := if fraction = 0 then [] else '.' :: fractionDigits fraction
  (Date.ofDays (seconds / 86400)).text ++ String.ofList ('T' :: time ++ tail ++ ['Z'])

/-! ## Reading -/

/-- A number of exactly so many digits, and the text behind it. -/
def digits? (count : Nat) (text : List Char) : Option (Nat × List Char) :=
  let taken := text.take count
  if taken.length = count ∧ taken.all Char.isDigit then
    some (Nat.ofDigitChars 10 taken 0, text.drop count)
  else none

/-- A year of four digits, or of six behind a sign. There is no year minus zero. -/
def readYear? (text : List Char) : Option (Int × List Char) :=
  match text with
  | '-' :: rest => do
    let (year, rest) ← digits? 6 rest
    if year = 0 then none else return (- Int.ofNat year, rest)
  | '+' :: rest => do
    let (year, rest) ← digits? 6 rest
    return (Int.ofNat year, rest)
  | rest => do
    let (year, rest) ← digits? 4 rest
    return (Int.ofNat year, rest)

/-- The text behind a character that has to stand there if it is wanted. -/
def separator? (wanted : Bool) (c : Char) (text : List Char) : Option (List Char) :=
  if wanted then
    match text with
    | d :: rest => if d = c then some rest else none
    | [] => none
  else some text

/-- A date with hyphens or without. -/
def readDate? (text : List Char) : Option (Date × List Char) := do
  let (year, rest) ← readYear? text
  let hyphens := rest.head? == some '-'
  let (month, rest) ← digits? 2 (← separator? hyphens '-' rest)
  let (day, rest) ← digits? 2 (← separator? hyphens '-' rest)
  let date : Date := ⟨year, month, day⟩
  if date.isValid ∧ -9999 ≤ year ∧ year ≤ 9999 then some (date, rest) else none

/-- A fraction in nanoseconds, of nine digits at most, if there is one. -/
def readFraction? (text : List Char) : Option (Nat × List Char) :=
  match text with
  | '.' :: rest | ',' :: rest =>
    let digits := rest.takeWhile Char.isDigit
    if digits.isEmpty ∨ 9 < digits.length then none
    else
      some (Nat.ofDigitChars 10 digits 0 * Nat.pow 10 (9 - digits.length), rest.dropWhile Char.isDigit)
  | rest => some (0, rest)

/-- Does a further part of a time follow? Without colons, it does if digits follow. -/
def partFollows (colons : Bool) (text : List Char) : Bool :=
  if colons then text.head? == some ':' else (digits? 2 text).isSome

/-- A time of day in nanoseconds. Minutes and seconds may be left out; a leap second counts as the
    second before it. -/
def readTime? (text : List Char) : Option (Int × List Char) := do
  let (hour, rest) ← digits? 2 text
  if 23 < hour then none
  let colons := rest.head? == some ':'
  if !partFollows colons rest then return (Int.ofNat hour * 3600 * nanosPerSecond, rest)
  let (minute, rest) ← digits? 2 (← separator? colons ':' rest)
  if 59 < minute then none
  let minutes := Int.ofNat (hour * 60 + minute)
  if !partFollows colons rest then return (minutes * 60 * nanosPerSecond, rest)
  let (second, rest) ← digits? 2 (← separator? colons ':' rest)
  if 60 < second then none
  let (fraction, rest) ← readFraction? rest
  return ((minutes * 60 + min second 59) * nanosPerSecond + fraction, rest)

/-- The offset of a time from universal time, in seconds. -/
def readOffset? (text : List Char) : Option (Int × List Char) :=
  let unsigned? (text : List Char) : Option (Int × List Char) := do
    let (hour, rest) ← digits? 2 text
    if 25 < hour then none
    let colons := rest.head? == some ':'
    if !partFollows colons rest then return (Int.ofNat hour * 3600, rest)
    let (minute, rest) ← digits? 2 (← separator? colons ':' rest)
    if 59 < minute then none
    let minutes := Int.ofNat (hour * 60 + minute)
    if !partFollows colons rest then return (minutes * 60, rest)
    let (second, rest) ← digits? 2 (← separator? colons ':' rest)
    if 59 < second then none
    return (minutes * 60 + second, rest)
  match text with
  | 'Z' :: rest | 'z' :: rest => some (0, rest)
  | '+' :: rest => unsigned? rest
  | '-' :: rest => do
    let (offset, rest) ← unsigned? rest
    return (-offset, rest)
  | _ => none

/-- The instant that a text denotes. It has a date, a time and an offset, and lies in the range. -/
def ofText? (text : String) : Option Timestamp := do
  let (date, rest) ← readDate? text.toList
  let rest ← match rest with
    | 'T' :: rest | 't' :: rest | ' ' :: rest => some rest
    | _ => none
  let (time, rest) ← readTime? rest
  let (offset, rest) ← readOffset? rest
  let t : Timestamp := ⟨(date.toDays * 86400 - offset) * nanosPerSecond + time⟩
  if rest.isEmpty ∧ t.inRange then some t else none

end Timestamp

end BlockPipeline.Temporal
