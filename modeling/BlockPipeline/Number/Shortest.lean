import BlockPipeline.Number.Floating

set_option autoImplicit false

/-! # The fewest digits that read back

The reals that round to a given value form an interval: from halfway to its lower neighbour to
halfway to its upper one, the ends included exactly when the mantissa is even. `Format.shortest`
finds the decimal with the fewest digits in that interval, and of two such decimals the closer one.

How digits become text is the affair of whoever writes them, so it is a record, `Layout`, and
`Layout.render` lays digits out by it. -/

namespace BlockPipeline.Number

/-- The decimal `digits · 10 ^ exponent`. -/
structure Decimal where
  digits : Nat
  exponent : Int
  deriving DecidableEq, Repr

/-- Which of two equally close decimals is taken. -/
inductive Tie where
  | toEven
  | up
  deriving DecidableEq, Repr

/-- Compares `a · 10 ^ i` with `n · 2 ^ j`, without rounding. -/
def compareScaled (a : Nat) (i : Int) (n : Nat) (j : Int) : Ordering :=
  compare (a * tenTo i * twoTo (-j)) (n * twoTo j * tenTo (-i))

/-- Does the decimal lie among the reals that round to `mantissa · 2 ^ exponent`? All bounds are in
    quarters of the last bit, since below a power of two the gap is half as wide. -/
def Format.readsBack (format : Format) (mantissa : Nat) (exponent : Int) (d : Decimal) : Bool :=
  let narrow := mantissa = format.leastNormal ∧ format.leastExponent < exponent
  let low := if narrow then 4 * mantissa - 1 else 4 * mantissa - 2
  let closed := mantissa % 2 = 0
  let atLow := compareScaled d.digits d.exponent low (exponent - 2)
  let atHigh := compareScaled d.digits d.exponent (4 * mantissa + 2) (exponent - 2)
  (atLow == .gt || (closed && atLow == .eq)) && (atHigh == .lt || (closed && atHigh == .eq))

/-- The least `k` with `mantissa · 2 ^ exponent < 10 ^ k`, for a positive mantissa. The binary
    logarithm is off by at most one decade, which the tests mend. -/
def decimalMagnitude (mantissa : Nat) (exponent : Int) : Int :=
  let guess : Int := ((mantissa.log2 + exponent) * 30103).fdiv 100000
  let above (k : Int) : Bool := compareScaled 1 k mantissa exponent == .gt
  if above guess then guess else if above (guess + 1) then guess + 1 else guess + 2

/-- The better of the two neighbours of the value on the grid of `10 ^ grid`, if one reads back. -/
def Format.onGrid? (format : Format) (tie : Tie) (mantissa : Nat) (exponent grid : Int) :
    Option Decimal :=
  let num := mantissa * twoTo exponent * tenTo (-grid)
  let den := twoTo (-exponent) * tenTo grid
  let below := num / den
  let lower : Decimal := ⟨below, grid⟩
  let upper : Decimal := ⟨below + 1, grid⟩
  match format.readsBack mantissa exponent lower, format.readsBack mantissa exponent upper with
  | true, false => some lower
  | false, true => some upper
  | false, false => none
  | true, true =>
    match compare (2 * num) ((2 * below + 1) * den) with
    | .lt => some lower
    | .gt => some upper
    | .eq =>
      match tie with
      | .up => some upper
      | .toEven => some (if below % 2 = 0 then lower else upper)

/-- Moves trailing zeros of the digits into the exponent. The fuel is the number of digits. -/
def Decimal.strip : Nat → Decimal → Decimal
  | 0, d => d
  | fuel + 1, d =>
    if d.digits % 10 = 0 ∧ d.digits ≠ 0 then strip fuel ⟨d.digits / 10, d.exponent + 1⟩ else d

/-- The shortest decimal that reads back to `mantissa · 2 ^ exponent`, for a positive mantissa.
    Seventeen digits suffice for every format here; should none do, the exact value is given. -/
def Format.shortest (format : Format) (tie : Tie) (mantissa : Nat) (exponent : Int) : Decimal :=
  let magnitude := decimalMagnitude mantissa exponent
  let found := (List.range 17).findSome? fun (n : Nat) =>
    format.onGrid? tie mantissa exponent (magnitude - (n + 1))
  match found with
  | some d => d.strip 17
  | none => ⟨mantissa * twoTo exponent * Nat.pow 5 (-exponent).toNat, min exponent 0⟩

/-! ## Layout -/

/-- The decisions of a number format: which leading exponents are written positionally, whether a
    positive exponent has a sign, and which way ties go. Positional numbers always show a fraction. -/
structure Layout where
  plainFrom : Int
  plainBelow : Int
  exponentPlus : Bool
  tie : Tie

/-- Positional text of a decimal, with at least one digit on either side of the point. -/
def Decimal.positional (d : Decimal) : String :=
  let ds := Nat.toDigits 10 d.digits
  if 0 ≤ d.exponent then
    String.ofList (ds ++ List.replicate d.exponent.toNat '0' ++ ['.', '0'])
  else
    let places := (-d.exponent).toNat
    let padded := List.replicate (places + 1 - ds.length) '0' ++ ds
    String.ofList (padded.take (padded.length - places) ++ '.' :: padded.drop (padded.length - places))

/-- Text with one digit before the point and an exponent after the mark. -/
def Decimal.scientific (d : Decimal) (exponentPlus : Bool) : String :=
  let ds := Nat.toDigits 10 d.digits
  let lead := d.exponent + (ds.length - 1 : Nat)
  let fraction := match ds.drop 1 with
    | [] => []
    | rest => '.' :: rest
  let sign := if lead < 0 then ['-'] else if exponentPlus then ['+'] else []
  String.ofList (ds.take 1 ++ fraction ++ 'e' :: sign ++ Nat.toDigits 10 lead.natAbs)

/-- The text of a finite value of the format. -/
def Layout.render (layout : Layout) (format : Format) (x : Finite) : String :=
  let sign := if x.negative then "-" else ""
  if x.mantissa = 0 then sign ++ "0.0"
  else
    let d := format.shortest layout.tie x.mantissa x.exponent
    let lead := d.exponent + ((Nat.toDigits 10 d.digits).length - 1 : Nat)
    if layout.plainFrom ≤ lead ∧ lead < layout.plainBelow then sign ++ d.positional
    else sign ++ d.scientific layout.exponentPlus

end BlockPipeline.Number
