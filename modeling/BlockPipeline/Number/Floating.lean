set_option autoImplicit false

/-! # Binary floating-point values, exactly

A floating-point value is kept as what it denotes: a sign, a natural mantissa and a power of two.
Nothing here touches machine floats, so every operation is exact arithmetic on naturals followed by
one rounding, and closed instances evaluate in the kernel.

`Format.nearest` rounds a quotient of naturals to the closest value of a format, a half going to the
even mantissa. All other roundings of the library go through it: a product is the exact product
rounded, a decimal is the exact decimal rounded. -/

namespace BlockPipeline.Number

/-- A binary format: how many bits a mantissa has, and between which powers of two the last of these
    bits lies. -/
structure Format where
  precision : Nat
  leastExponent : Int
  greatestExponent : Int

/-- The 64-bit format. -/
def Format.double : Format := ⟨53, -1074, 971⟩

/-- The 32-bit format. -/
def Format.single : Format := ⟨24, -149, 104⟩

/-- The finite value `mantissa · 2 ^ exponent` with a sign. Zero keeps its sign too. -/
structure Finite where
  negative : Bool
  mantissa : Nat
  exponent : Int
  deriving DecidableEq, Repr, Inhabited

/-- What a floating-point computation yields. -/
inductive Floating where
  | finite (value : Finite)
  | infinite (negative : Bool)
  | nan
  deriving DecidableEq, Repr, Inhabited

/-! ## Rounding -/

/-- `num / den` rounded to the closest natural, a half to the even one. -/
def divideToEven (num den : Nat) : Nat :=
  let quotient := num / den
  let twice := 2 * (num % den)
  if twice < den then quotient
  else if den < twice then quotient + 1
  else quotient + quotient % 2

/-- The power of two of an exponent that is not negative, and one otherwise. -/
def twoTo (e : Int) : Nat := Nat.pow 2 e.toNat

/-- The power of ten of an exponent that is not negative, and one otherwise. -/
def tenTo (e : Int) : Nat := Nat.pow 10 e.toNat

/-- The least mantissa with as many bits as the format has. -/
def Format.leastNormal (format : Format) : Nat := Nat.pow 2 (format.precision - 1)

/-- The greatest `e` with `2 ^ e ≤ num / den`, for positive `num` and `den`. -/
def binaryMagnitude (num den : Nat) : Int :=
  let guess : Int := num.log2 - den.log2
  if den * twoTo guess ≤ num * twoTo (-guess) then guess else guess - 1

/-- The value of the format that is closest to `num / den`, a tie going to the even mantissa. What
    lies beyond the greatest finite value by half a unit or more is infinite. -/
def Format.nearest (format : Format) (negative : Bool) (num den : Nat) : Floating :=
  if num = 0 then .finite ⟨negative, 0, format.leastExponent⟩
  else
    let exponent := max format.leastExponent (binaryMagnitude num den - (format.precision - 1))
    let mantissa := divideToEven (num * twoTo (-exponent)) (den * twoTo exponent)
    let rounded : Finite :=
      if mantissa = 2 * format.leastNormal then ⟨negative, format.leastNormal, exponent + 1⟩
      else ⟨negative, mantissa, exponent⟩
    if format.greatestExponent < rounded.exponent then .infinite negative else .finite rounded

/-- The value of the format that is closest to a finite value. -/
def Format.round (format : Format) (x : Finite) : Floating :=
  format.nearest x.negative (x.mantissa * twoTo x.exponent) (twoTo (-x.exponent))

/-- `Format.round` for every floating-point value. -/
def Format.convert (format : Format) : Floating → Floating
  | .finite x => format.round x
  | x => x

/-! ## Decimals -/

/-- The value of the format that is closest to `digits · 10 ^ exponent`. The two early answers only
    spare the work for exponents far outside every format here. -/
def Format.ofDecimal (format : Format) (negative : Bool) (digits : Nat) (exponent : Int) :
    Floating :=
  if digits = 0 then format.nearest negative 0 1
  else if 400 < exponent then .infinite negative
  else if exponent + (Nat.toDigits 10 digits).length < -400 then format.nearest negative 0 1
  else format.nearest negative (digits * tenTo exponent) (tenTo (-exponent))

/-! ## Products and quotients of 64-bit values -/

namespace Finite

/-- The non-negative integer `n`, rounded to 64 bits. Meant for `n` below the greatest value. -/
def ofNat (n : Nat) : Floating := Format.double.nearest false n 1

/-- The product, rounded once. -/
def mul (x y : Finite) : Floating :=
  let e := x.exponent + y.exponent
  Format.double.nearest (x.negative != y.negative)
    (x.mantissa * y.mantissa * twoTo e) (twoTo (-e))

/-- The quotient by a value other than zero, rounded once. -/
def div (x y : Finite) : Floating :=
  let e := x.exponent - y.exponent
  Format.double.nearest (x.negative != y.negative)
    (x.mantissa * twoTo e) (y.mantissa * twoTo (-e))

end Finite

/-- The finite value, if there is one. -/
def Floating.finite? : Floating → Option Finite
  | .finite x => some x
  | _ => none

/-- The 64-bit value closest to `10 ^ k`, for `k` up to 308. -/
def powerOfTen (k : Nat) : Floating := Format.double.nearest false (Nat.pow 10 k) 1

/-- `significand · 10 ^ exponent` in steps: the significand is rounded, the power of ten is rounded,
    and so is their product or quotient. This may differ from `Format.ofDecimal` in the last bit.
    Nothing comes back where the result would be infinite. A significand of at most twenty digits
    divided twice by `10 ^ 308` is zero, which settles all exponents below `-616`. -/
def scaleInSteps (negative : Bool) (significand : Nat) (exponent : Int) : Option Finite := do
  let start ← (Finite.ofNat significand).finite?
  let positive ←
    if start.mantissa = 0 then some start
    else if 308 < exponent then none
    else if 0 ≤ exponent then do
      (start.mul (← (powerOfTen exponent.toNat).finite?)).finite?
    else if -308 ≤ exponent then do
      (start.div (← (powerOfTen (-exponent).toNat).finite?)).finite?
    else if -616 ≤ exponent then do
      let low ← (start.div (← (powerOfTen 308).finite?)).finite?
      (low.div (← (powerOfTen (-exponent - 308).toNat).finite?)).finite?
    else (Format.double.nearest false 0 1).finite?
  return { positive with negative }

end BlockPipeline.Number
