import BlockPipeline.Number.Floating
import BlockPipeline.Number.Integer

set_option autoImplicit false

/-! # Reading floating-point text

A number has digits before or behind a point, or both, and perhaps an exponent. It is rounded once, to
the format that is wanted. The words `inf`,
`infinity` and `nan` are read in any case. Everything may have a sign. -/

namespace BlockPipeline.Number

/-- An exponent with its sign. It has digits. -/
def exponentOf? (text : List Char) : Option Int :=
  match text with
  | '-' :: digits => (Text.digitsValue? digits).map (- Int.ofNat ·)
  | '+' :: digits => (Text.digitsValue? digits).map Int.ofNat
  | digits => (Text.digitsValue? digits).map Int.ofNat

/-- What follows the digits of a number: nothing, or a mark and an exponent. -/
def exponentPart? (text : List Char) : Option Int :=
  match text with
  | [] => some 0
  | 'e' :: rest | 'E' :: rest => exponentOf? rest
  | _ => none

/-- The digits behind the point, and what follows them. -/
def fractionPart (text : List Char) : List Char × List Char :=
  match text with
  | '.' :: rest => (rest.takeWhile Char.isDigit, rest.dropWhile Char.isDigit)
  | rest => ([], rest)

/-- A number without a sign. -/
def decimalOf? (format : Format) (negative : Bool) (text : List Char) : Option Floating := do
  let whole := text.takeWhile Char.isDigit
  let (fraction, rest) := fractionPart (text.dropWhile Char.isDigit)
  let exponent ← exponentPart? rest
  if whole.isEmpty && fraction.isEmpty then none
  else
    return format.ofDecimal negative (Nat.ofDigitChars 10 (whole ++ fraction) 0)
      (exponent - fraction.length)

/-- A number or a word, behind its sign. -/
def unsignedOf? (format : Format) (negative : Bool) (text : List Char) : Option Floating :=
  let word := String.ofList (text.map Char.toLower)
  if word = "inf" ∨ word = "infinity" then some (.infinite negative)
  else if word = "nan" then some .nan
  else decimalOf? format negative text

/-- The floating-point value of a text. -/
def Format.ofText? (format : Format) (text : String) : Option Floating :=
  match text.toList with
  | '-' :: rest => unsignedOf? format true rest
  | '+' :: rest => unsignedOf? format false rest
  | rest => unsignedOf? format false rest

end BlockPipeline.Number
