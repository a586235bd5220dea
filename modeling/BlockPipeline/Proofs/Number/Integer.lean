import BlockPipeline.Proofs.Number.Numeral
import Mathlib.Algebra.Group.Int.Defs
import Mathlib.Algebra.GroupWithZero.Nat

set_option autoImplicit false

/-! # Integers with a fixed number of bits or digits

The tests whether an integer fits into so many bits are bounds, here in the form in which `omega` takes
them. A number that is written with zeros in front has as many digits as the width says
(`digits_padDigits`). -/

namespace BlockPipeline

namespace Number

/-! ## Widths -/

variable {bits : Nat} {n : Int}

theorem fitsUnsigned_iff : fitsUnsigned bits n = true ↔ 0 ≤ n ∧ n < 2 ^ bits := by
  have hpow : Int.ofNat (Nat.pow 2 bits) = 2 ^ bits := by simp
  rw [fitsUnsigned, decide_eq_true_iff, hpow]

theorem fitsSigned_iff :
    fitsSigned bits n = true ↔ -2 ^ (bits - 1) ≤ n ∧ n < 2 ^ (bits - 1) := by
  have hpow : Int.ofNat (Nat.pow 2 (bits - 1)) = 2 ^ (bits - 1) := by simp
  rw [fitsSigned, decide_eq_true_iff, hpow]
  omega

end Number

namespace Text

/-! ## Decimal digits -/

/-- The text has exactly so many digits, which denote the number. -/
structure Digits (width n : Nat) (text : List Char) : Prop where
  length : text.length = width
  digits : Number.AllDigits text
  value : Nat.ofDigitChars 10 text 0 = n

theorem value_padDigits (width n : Nat) : Nat.ofDigitChars 10 (padDigits width n) 0 = n := by
  rw [padDigits, Nat.ofDigitChars_append, Nat.ofDigitChars_replicate_zero, Nat.mul_zero,
    Nat.ofDigitChars_ten_toDigits]

theorem allDigits_padDigits (width n : Nat) : Number.AllDigits (padDigits width n) :=
  (Number.allDigits_zeros _).append (Number.allDigits_toDigits n)

theorem length_padDigits {width n : Nat} (hwidth : 0 < width) (h : n < 10 ^ width) :
    (padDigits width n).length = width := by
  have hle := (Nat.length_toDigits_le_iff (by decide : 1 < 10) hwidth).2 h
  rw [padDigits, List.length_append, List.length_replicate]
  exact Nat.sub_add_cancel hle

theorem digits_padDigits {width n : Nat} (hwidth : 0 < width) (h : n < 10 ^ width) :
    Digits width n (padDigits width n) :=
  ⟨length_padDigits hwidth h, allDigits_padDigits width n, value_padDigits width n⟩

/-- Digits begin with one. -/
theorem Digits.exists_cons {width n : Nat} {text : List Char} (h : Digits (width + 1) n text) :
    ∃ c rest, text = c :: rest ∧ c.isDigit = true := by
  obtain ⟨c, rest, rfl⟩ := List.exists_cons_of_length_eq_add_one h.length
  exact ⟨c, rest, rfl, h.digits c List.mem_cons_self⟩

end Text

end BlockPipeline
