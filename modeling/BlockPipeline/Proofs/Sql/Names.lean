import BlockPipeline.Sql.Name
import Mathlib.Algebra.Group.Nat.Defs
import Mathlib.Data.List.Chain

set_option autoImplicit false

/-! # The names of derived tables

The table of a block is called by a mark and the thirty-two digits of the identifier. From these digits
the identifier can be read back, so different blocks have different tables (`derived_injective`). And
since there is nothing but letters, digits and an underscore in the name, it needs no quotes. -/

namespace BlockPipeline

variable {id : BlockId} {width n m : Nat} {c : Char}

namespace Uuid

theorem digitChar_inj : ∀ d < 16, ∀ e < 16, Nat.digitChar d = Nat.digitChar e → d = e := by decide

theorem length_hexDigits (width n : Nat) : (hexDigits width n).length = width := by
  induction width generalizing n with
  | zero => rfl
  | succ width ih => rw [hexDigits, List.length_append, ih, List.length_singleton]

theorem mem_hexDigits (h : c ∈ hexDigits width n) : ∃ d < 16, c = Nat.digitChar d := by
  induction width generalizing n with
  | zero => cases h
  | succ width ih =>
    rcases List.mem_append.1 h with h | h
    · exact ih h
    · exact ⟨n % 16, Nat.mod_lt n (by decide), List.mem_singleton.1 h⟩

/-- The digits of a number determine it, as far as it has no more of them. -/
theorem mod_eq_of_hexDigits (h : hexDigits width n = hexDigits width m) :
    n % 16 ^ width = m % 16 ^ width := by
  induction width generalizing n m with
  | zero => rw [Nat.pow_zero, Nat.mod_one, Nat.mod_one]
  | succ width ih =>
    obtain ⟨hfront, hlast⟩ := List.append_singleton_inj.1 h
    have hmod : n % 16 = m % 16 := digitChar_inj _ (Nat.mod_lt n (by decide)) _
      (Nat.mod_lt m (by decide)) hlast
    rw [Nat.pow_succ', Nat.mod_mul, Nat.mod_mul, hmod, ih hfront]

theorem simple_injective : Function.Injective simple := by
  intro a b h
  have hdigits : hexDigits 32 a.value.toNat = hexDigits 32 b.value.toNat := String.ofList_inj.1 h
  have hmod := mod_eq_of_hexDigits hdigits
  have hpow : 16 ^ 32 = 2 ^ 128 := by decide
  rw [hpow, Nat.mod_eq_of_lt a.value.isLt, Nat.mod_eq_of_lt b.value.isLt] at hmod
  obtain ⟨value⟩ := a
  exact congrArg Uuid.mk (BitVec.eq_of_toNat_eq hmod)

end Uuid

namespace TableName

theorem toList_mark : derivedMark.toList = ['t', 'e', 'm', 'p', '_'] := by decide

theorem toList_derived (id : BlockId) :
    (derived id).text.toList = ['t', 'e', 'm', 'p', '_'] ++ id.digits := by
  rw [derived, String.toList_append, Uuid.simple, String.toList_ofList, toList_mark]

/-- Different blocks have different tables. -/
theorem derived_injective : Function.Injective derived := by
  intro a b h
  have htext : (derived a).text.toList = (derived b).text.toList := by rw [h]
  rw [toList_derived, toList_derived, List.append_cancel_left_eq] at htext
  exact Uuid.simple_injective (congrArg String.ofList htext)

theorem text_ne {first second : TableName} (h : first ≠ second) : first.text ≠ second.text :=
  mt (congrArg TableName.mk) h

theorem derived_text_ne {other : BlockId} (h : other ≠ id) : (derived other).text ≠ (derived id).text :=
  text_ne fun hname => h (derived_injective hname)

/-- What holds of the characters of the mark and of all digits holds of the whole name. -/
theorem forall_mem_derived {p : Char → Bool} (hmark : ['t', 'e', 'm', 'p', '_'].all p = true)
    (hdigits : ∀ d < 16, p (Nat.digitChar d) = true) : ∀ c ∈ (derived id).text.toList, p c = true := by
  intro c hc
  rw [toList_derived] at hc
  rcases List.mem_append.1 hc with hc | hc
  · exact List.all_eq_true.1 hmark c hc
  · obtain ⟨d, hd, rfl⟩ := Uuid.mem_hexDigits hc
    exact hdigits d hd

theorem isPlain_derived (id : BlockId) : (derived id).isPlain = true := by
  have hall : ∀ c ∈ (derived id).text.toList, isPlainRest c = true :=
    forall_mem_derived (by decide) (by decide)
  rw [toList_derived, List.cons_append] at hall
  rw [isPlain, toList_derived, List.cons_append]
  exact Bool.and_eq_true_iff.2 ⟨by decide, List.all_eq_true.2 fun c hc =>
    hall c (List.mem_cons_of_mem _ hc)⟩

end TableName

namespace Sql

theorem pairwise_reservedWords : reservedWords.Pairwise (· < ·) := by
  rw [← List.isChain_iff_pairwise]
  decide +kernel

/-- The search for reserved words misses none of them. -/
theorem isReserved_iff (name : String) : isReserved name = true ↔
    String.ofList (name.toList.map Char.toUpper) ∈ reservedWords :=
  Bisection.contains_iff pairwise_reservedWords

/-- No reserved word is as long as the name of a derived table. -/
theorem isBare_derived (id : BlockId) : isBare (.derived id) = true := by
  have hshort : ∀ word ∈ reservedWords, word.toList.length < 37 := by decide +kernel
  rw [isBare, TableName.isPlain_derived, Bool.true_and, Bool.not_eq_true', ← Bool.not_eq_true,
    isReserved_iff]
  intro hmem
  have hlength := hshort _ hmem
  rw [String.toList_ofList, List.length_map, TableName.toList_derived, List.length_append,
    Uuid.digits, Uuid.length_hexDigits] at hlength
  exact absurd hlength (by decide)

end Sql

end BlockPipeline
