import BlockPipeline.Database.Value
import BlockPipeline.Proofs.Json.Values

set_option autoImplicit false

/-! # The JSON of integers

An integer becomes a JSON number whatever its type is, as far as the number fits into 64 signed bits,
and of the widest type a string of its digits beyond that. Numbers that need the 64th bit are therefore
rendered in two ways, as a number of an unsigned type and as a string of the widest one
(`toJson_integer`). -/

namespace BlockPipeline

namespace Text

/-! ## Decimal digits -/

/-- Digits that denote the number, without a zero in front of others. -/
structure Denotes (n : Nat) (text : List Char) : Prop where
  nonempty : text ≠ []
  digits : Number.AllDigits text
  value : Nat.ofDigitChars 10 text 0 = n
  front : ∀ rest, text = '0' :: rest → n = 0 ∧ rest = []

/-- An integer is written exactly: in digits, with a sign if it is negative. -/
inductive Decimal : Int → List Char → Prop where
  | natural {n : Nat} {text : List Char} (h : Denotes n text) : Decimal n text
  | negative {n : Nat} {text : List Char} (hpos : 0 < n) (h : Denotes n text) :
    Decimal (-n) ('-' :: text)

theorem denotes_toDigits (n : Nat) : Denotes n (Nat.toDigits 10 n) where
  nonempty := Nat.toDigits_ne_nil
  digits := Number.allDigits_toDigits n
  value := Nat.ofDigitChars_ten_toDigits
  front rest h := by
    obtain rfl := Json.Reader.eq_zero_of_toDigits h
    exact ⟨rfl, by simpa using h.symm⟩

theorem decimal_integerText (n : Int) : Decimal n (integerText n).toList := by
  have hdigits := denotes_toDigits n.natAbs
  unfold integerText naturalText
  split
  · next hn =>
    rw [String.toList_ofList]
    have h := Decimal.negative (by omega) hdigits
    rwa [show -(n.natAbs : Int) = n by omega] at h
  · next hn =>
    rw [String.toList_ofList]
    have h := Decimal.natural hdigits
    rwa [show (n.natAbs : Int) = n by omega] at h

end Text

/-! ## Reading -/

/-- A value is read back from its text on one line. -/
theorem Json.Readable.ofText?_compact {value : Json} {room : Nat} (h : Readable room value)
    (hroom : room ≤ Reader.depthLimit) : ofText? value.compact = some value := by
  simp only [ofText?, compact, h.ofText_chars hroom .compact, Node.read_ofJson]
  rfl

namespace Database

variable {type : IntegerType} {n : Int}

/-! ## Widths -/

/-- Only the two widest types hold numbers of more than 64 bits. -/
theorem IntegerType.bounds_of_holds (h : type.holds n = true) (hsigned : type ≠ .huge)
    (hunsigned : type ≠ .unsignedHuge) : -2 ^ 63 ≤ n ∧ n < 2 ^ 64 := by
  cases type <;>
    simp [holds, isSigned, bits, Number.fitsSigned_iff, Number.fitsUnsigned_iff] at h hsigned hunsigned <;> omega

namespace Value

/-! ## Rendering -/

/-- The integer becomes a number, whose text is exact and is read back as that number. -/
structure RendersNumber (type : IntegerType) (n : Int) : Prop where
  json : toJson (.integer type n) = .ofInt n
  text : Text.Decimal n (toJson (.integer type n)).compact.toList
  read : Json.ofText? (toJson (.integer type n)).compact = some (.ofInt n)

/-- The integer becomes a string that writes it exactly. -/
def RendersString (type : IntegerType) (n : Int) : Prop :=
  ∃ text, toJson (.integer type n) = .string text ∧ Text.Decimal n text.toList

theorem RendersNumber.not_rendersString (h : RendersNumber type n) : ¬ RendersString type n := by
  rintro ⟨text, hstring, -⟩
  rw [h.json] at hstring
  cases hstring

theorem rendersNumber (hjson : toJson (.integer type n) = .ofInt n) (hfirst : -2 ^ 63 ≤ n)
    (hlast : n < 2 ^ 64) : RendersNumber type n := by
  have hreadable : Json.Readable 0 (.ofInt n) := .number (Json.Number.isIntegral_iff.2 ⟨hfirst, hlast⟩)
  refine ⟨hjson, ?_, ?_⟩
  · rw [hjson, Json.compact, String.toList_ofList]
    exact Text.decimal_integerText n
  · rw [hjson]
    exact hreadable.ofText?_compact (Nat.zero_le _)

/-- Of a type other than the widest ones, integers become numbers. -/
theorem rendersNumber_of_ne (h : type.holds n = true) (hsigned : type ≠ .huge)
    (hunsigned : type ≠ .unsignedHuge) : RendersNumber type n := by
  obtain ⟨hfirst, hlast⟩ := IntegerType.bounds_of_holds h hsigned hunsigned
  refine rendersNumber ?_ hfirst hlast
  cases type <;> first | rfl | contradiction

theorem rendersNumber_huge (hfirst : -2 ^ 63 ≤ n) (hlast : n < 2 ^ 63) : RendersNumber .huge n := by
  have hfits : IntegerType.big.holds n = true := Number.fitsSigned_iff.2 ⟨hfirst, hlast⟩
  refine rendersNumber ?_ hfirst (by omega)
  rw [toJson, integerJson, if_pos hfits]

theorem rendersString_huge (h : ¬ (-2 ^ 63 ≤ n ∧ n < 2 ^ 63)) : RendersString .huge n := by
  have hfits : ¬ IntegerType.big.holds n = true := mt Number.fitsSigned_iff.1 h
  refine ⟨Text.integerText n, ?_, Text.decimal_integerText n⟩
  rw [toJson, integerJson, if_neg hfits]

theorem rendersNumber_iff (h : type.holds n = true) (hunsigned : type ≠ .unsignedHuge) :
    RendersNumber type n ↔ type ≠ .huge ∨ (-2 ^ 63 ≤ n ∧ n < 2 ^ 63) := by
  constructor
  · intro hnumber
    by_contra hneither
    obtain ⟨hhuge, hbeyond⟩ := not_or.1 hneither
    obtain rfl := not_not.1 hhuge
    exact hnumber.not_rendersString (rendersString_huge hbeyond)
  · intro hwithin
    by_cases hhuge : type = .huge
    · obtain ⟨hfirst, hlast⟩ := hwithin.resolve_left (not_not.2 hhuge)
      exact hhuge ▸ rendersNumber_huge hfirst hlast
    · exact rendersNumber_of_ne h hhuge hunsigned

theorem rendersString_iff (h : type.holds n = true) (hunsigned : type ≠ .unsignedHuge) :
    RendersString type n ↔ type = .huge ∧ ¬ (-2 ^ 63 ≤ n ∧ n < 2 ^ 63) := by
  constructor
  · intro hstring
    have hnumber : ¬ RendersNumber type n := fun hnumber => hnumber.not_rendersString hstring
    rwa [rendersNumber_iff h hunsigned, not_or, not_not] at hnumber
  · rintro ⟨rfl, hbeyond⟩
    exact rendersString_huge hbeyond

/-- An integer becomes a number, or of the widest type and beyond 64 signed bits a string, and either
    is exact. So all types that hold an integer of 64 bits make it the same number if it is below
    `2 ^ 63`, and otherwise the widest type does not. -/
theorem toJson_integer (n : Int) :
    (∀ type, type ≠ .unsignedHuge → type.holds n = true →
      (RendersNumber type n ↔ type ≠ .huge ∨ (-2 ^ 63 ≤ n ∧ n < 2 ^ 63)) ∧
      (RendersString type n ↔ type = .huge ∧ ¬ (-2 ^ 63 ≤ n ∧ n < 2 ^ 63))) ∧
    (-2 ^ 63 ≤ n → n < 2 ^ 64 → ((∀ type, type ≠ .unsignedHuge → type.holds n = true →
      RendersNumber type n) ↔ n < 2 ^ 63)) := by
  refine ⟨fun type hunsigned h => ⟨rendersNumber_iff h hunsigned, rendersString_iff h hunsigned⟩, ?_⟩
  intro hfirst hlast
  constructor
  · intro hall
    have hholds : IntegerType.huge.holds n = true := by
      refine Number.fitsSigned_iff.2 ?_
      simp only [IntegerType.bits]
      omega
    have hnumber := hall .huge (by decide) hholds
    rw [rendersNumber_iff hholds (by decide)] at hnumber
    exact (hnumber.resolve_left (not_not.2 rfl)).2
  · intro hbelow type hunsigned h
    exact (rendersNumber_iff h hunsigned).2 (.inr ⟨hfirst, hbelow⟩)

/-- The greatest number on which the types agree, and the least that is beyond 64 signed bits on the
    other side. -/
theorem toJson_integer_limits :
    (IntegerType.huge ≠ .unsignedHuge ∧ IntegerType.huge.holds (-9223372036854775809) = true ∧
      RendersString .huge (-9223372036854775809)) ∧
    ∀ type, type ≠ .unsignedHuge → type.holds 9223372036854775807 = true →
      RendersNumber type 9223372036854775807 := by
  refine ⟨⟨by decide, by decide, ?_⟩, ((toJson_integer _).2 (by decide) (by decide)).2 (by decide)⟩
  exact ((toJson_integer _).1 .huge (by decide) (by decide)).2.2 ⟨rfl, by decide⟩

/-- An integer of 64 bits that two types render in two ways. -/
theorem toJson_integer_huge :
    IntegerType.unsignedBig.holds 9223372036854775808 = true ∧
      IntegerType.huge.holds 9223372036854775808 = true ∧
      toJson (.integer .unsignedBig 9223372036854775808) = .ofInt 9223372036854775808 ∧
      toJson (.integer .huge 9223372036854775808) = .string "9223372036854775808" := by
  decide +kernel

end Value

end Database

end BlockPipeline
