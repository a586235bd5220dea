set_option autoImplicit false

/-! # Integers of a width, and in decimal digits

Integers are unbounded everywhere in the library. Where a format gives an integer so many bits, one of
two tests says whether it fits. Reading takes ASCII digits with an optional sign and refuses what does
not fit into the wanted range. Zeros in front are allowed. -/

namespace BlockPipeline

namespace Number

/-! ## Widths -/

/-- Does an integer fit into so many bits without a sign? -/
def fitsUnsigned (bits : Nat) (n : Int) : Bool := 0 ≤ n ∧ n < Int.ofNat (Nat.pow 2 bits)

/-- Does an integer fit into so many bits in two's complement? -/
def fitsSigned (bits : Nat) (n : Int) : Bool :=
  let half := Int.ofNat (Nat.pow 2 (bits - 1))
  0 ≤ n + half ∧ n < half

end Number

namespace Text

/-! ## Decimal digits -/

/-- The number that a non-empty run of ASCII digits denotes. -/
def digitsValue? (s : List Char) : Option Nat :=
  if !s.isEmpty && s.all Char.isDigit then some (Nat.ofDigitChars 10 s 0) else none

/-- A number below `2 ^ bits`, perhaps after a plus sign. -/
def natural? (bits : Nat) (s : String) : Option Nat :=
  let digits := match s.toList with
    | '+' :: rest => rest
    | all => all
  (digitsValue? digits).filter (· < Nat.pow 2 bits)

/-- A signed number of the given width in two's complement, perhaps after a sign. -/
def integer? (bits : Nat) (s : String) : Option Int :=
  let value? : Option Int := match s.toList with
    | '-' :: rest => (digitsValue? rest).map (- Int.ofNat ·)
    | '+' :: rest => (digitsValue? rest).map Int.ofNat
    | all => (digitsValue? all).map Int.ofNat
  value?.filter (Number.fitsSigned bits)

/-- The text of a natural number. -/
def naturalText (n : Nat) : String := String.ofList (Nat.toDigits 10 n)

/-- The text of an integer. -/
def integerText (n : Int) : String :=
  if n < 0 then String.ofList ('-' :: Nat.toDigits 10 n.natAbs) else naturalText n.natAbs

/-- The decimal digits of a number, with zeros in front up to the width. -/
def padDigits (width n : Nat) : List Char :=
  let digits := Nat.toDigits 10 n
  List.replicate (width - digits.length) '0' ++ digits

end Text

end BlockPipeline
