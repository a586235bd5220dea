import BlockPipeline.Proofs.Sql.Names
import Mathlib.Algebra.GroupWithZero.Nat

set_option autoImplicit false

/-! # Identifiers are read back

The text of an identifier is its thirty-two digits in five groups. Reading takes the hyphens out again
and adds the digits up to the number that they were taken from (`ofText?_text`). -/

namespace BlockPipeline.Uuid

variable {width n : Nat} {cs : List Char}

/-! ## Digits -/

theorem hexValue?_digitChar : ∀ d < 16, hexValue? (Nat.digitChar d) = some d := by decide

/-- The digits of a number add up to it, as far as it has no more of them. -/
theorem mapM_hexDigits (width n : Nat) : ∃ values, (hexDigits width n).mapM hexValue? = some values ∧
    values.foldl (fun sum value => sum * 16 + value) 0 = n % 16 ^ width := by
  induction width generalizing n with
  | zero => exact ⟨[], rfl, (Nat.mod_one n).symm⟩
  | succ width ih =>
    obtain ⟨values, hvalues, hsum⟩ := ih (n / 16)
    have hlast := hexValue?_digitChar (n % 16) (Nat.mod_lt n (by decide))
    refine ⟨values ++ [n % 16], ?_, ?_⟩
    · simp [hexDigits, List.mapM_append, hvalues, hlast]
    · rw [List.foldl_append, hsum, List.foldl_cons, List.foldl_nil, Nat.pow_succ', Nat.mod_mul]
      omega

theorem length_digits (id : Uuid) : id.digits.length = 32 := length_hexDigits 32 _

theorem ofDigits?_digits (id : Uuid) : ofDigits? id.digits = some id := by
  obtain ⟨values, hvalues, hsum⟩ := mapM_hexDigits 32 id.value.toNat
  have hpow : 16 ^ 32 = 2 ^ 128 := by decide
  rw [hpow, Nat.mod_eq_of_lt id.value.isLt] at hsum
  rw [ofDigits?, if_pos id.length_digits, digits, hvalues, Option.map_some, hsum,
    BitVec.ofNat_toNat, BitVec.setWidth_eq]

/-! ## Groups -/

theorem dehyphenate?_hyphenate (groups : List Nat) (h : groups.sum ≤ cs.length) :
    dehyphenate? groups (hyphenate groups cs) = some cs := by
  induction groups generalizing cs with
  | nil => rfl
  | cons n groups ih =>
    cases groups with
    | nil => rfl
    | cons m groups =>
      rw [List.sum_cons] at h
      have hmore : dehyphenate? (m :: groups) (hyphenate (m :: groups) (cs.drop n))
          = some (cs.drop n) := ih (by rw [List.length_drop]; omega)
      have hlength : (cs.take n).length = n := List.length_take_of_le (by omega)
      have hdrop (rest : List Char) : (cs.take n ++ rest).drop n = rest := by
        rw [List.drop_append_of_le_length (by omega), List.drop_of_length_le (by omega),
          List.nil_append]
      have htake (rest : List Char) : (cs.take n ++ rest).take n = cs.take n := by
        rw [List.take_append_of_le_length (by omega), List.take_of_length_le (by omega)]
      simp only [hyphenate, dehyphenate?, hdrop, htake, hmore, Option.map_some,
        List.take_append_drop]

theorem length_hyphenate (groups : List Nat) (cs : List Char) :
    (hyphenate groups cs).length = cs.length + (groups.length - 1) := by
  induction groups generalizing cs with
  | nil => rfl
  | cons n groups ih =>
    cases groups with
    | nil => rfl
    | cons m groups =>
      simp only [hyphenate, List.length_append, List.length_cons, List.length_take, ih,
        List.length_drop]
      omega

/-- The text is neither in braces nor behind a mark: it begins with a digit. -/
theorem unwrapped?_hyphenate (id : Uuid) : unwrapped? (hyphenate groups id.digits) = none := by
  cases hcs : id.digits with
  | nil => rfl
  | cons c cs =>
    obtain ⟨d, hd, hc⟩ := mem_hexDigits (hcs ▸ List.mem_cons_self : c ∈ id.digits)
    have hmarks : ∀ d < 16, Nat.digitChar d ∉ ['\x7b', 'u', 'U'] := by decide
    have hmark := hmarks d hd
    rw [← hc] at hmark
    simp only [List.mem_cons, List.not_mem_nil, or_false, not_or] at hmark
    simp only [groups, hyphenate, List.take_succ_cons, List.cons_append]
    unfold unwrapped?
    split <;> simp_all

/-- An identifier is read back from its text. -/
theorem ofText?_text (id : Uuid) : ofText? id.text = some id := by
  have hlength := id.length_digits
  have hhyphens : (hyphenate groups id.digits).length = 36 := by
    rw [length_hyphenate, hlength]
    rfl
  rw [ofText?, text, String.toList_ofList, if_neg (by omega), id.unwrapped?_hyphenate,
    Option.getD_none, dehyphenate?_hyphenate groups (by rw [hlength]; decide), Option.bind_some,
    ofDigits?_digits]

end BlockPipeline.Uuid
