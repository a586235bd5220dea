import BlockPipeline.Json.Printer
import BlockPipeline.Json.Reader
import BlockPipeline.Proofs.Number.Integer
import BlockPipeline.Proofs.Text.Stops

set_option autoImplicit false

/-! # Strings and integers are read back

A string is read back whatever its characters are: those that would end it or may not stand in it are
written as escapes, and each escape is read as the character it was written for (`readString_escape`).
An integer of 64 bits, with or without a sign, is read back digit by digit: as long as the whole fits,
so does every part of it (`takeUp_eq`). -/

namespace BlockPipeline.Json

/-- The number is an integer of 64 bits, with or without a sign. -/
def Number.isIntegral : Json.Number → Bool
  | .integer n =>
    BlockPipeline.Number.fitsSigned 64 n || BlockPipeline.Number.fitsUnsigned 64 n
  | .float _ => false

theorem Number.isIntegral_iff {n : Int} :
    (Json.Number.integer n).isIntegral = true ↔ -2 ^ 63 ≤ n ∧ n < 2 ^ 64 := by
  rw [isIntegral, Bool.or_eq_true, BlockPipeline.Number.fitsSigned_iff,
    BlockPipeline.Number.fitsUnsigned_iff]
  omega

/-- The digits of such a number find room. -/
theorem Number.integer_of_isIntegral (number : Json.Number) (h : number.isIntegral = true) :
    ∃ n : Int, number = .integer n ∧ n.natAbs < Nat.pow 2 64 ∧
      (n < 0 → n.natAbs ≤ Nat.pow 2 63) := by
  cases number with
  | integer n =>
    obtain ⟨hfirst, hlast⟩ := isIntegral_iff.1 h
    refine ⟨n, rfl, ?_, fun hn => ?_⟩
    · simp only [Nat.pow_eq, Nat.reducePow]
      omega
    · simp only [Nat.pow_eq, Nat.reducePow]
      omega
  | float x => cases h

namespace Reader

open Text (Stops)

variable {rest : List Char}

/-! ## Strings -/

/-- The code of a control character, in the digits in which it is written. -/
theorem hexCode?_digitChar : ∀ code : Fin 32,
    hexCode? '0' '0' (Nat.digitChar (code / 16)) (Nat.digitChar (code % 16)) = some code.val := by
  decide

/-- A control character is read back from its code. -/
theorem readEscaped_control {c : Char} (hc : c.toNat < 32) (rest : List Char) :
    readEscaped ('0' :: '0' :: Nat.digitChar (c.toNat / 16) :: Nat.digitChar (c.toNat % 16) :: rest)
      = .char c rest := by
  have hcode := hexCode?_digitChar ⟨c.toNat, hc⟩
  simp only at hcode
  simp only [readEscaped, readCode, hcode]
  rw [if_pos (.inl (by omega)), Char.ofNat_toNat]

/-- Each character is read back as it is written inside a string. -/
theorem readString_escape (fuel : Nat) (seen : List Char) (c : Char) (rest : List Char) :
    readString (fuel + 1) (some seen) (escape c ++ rest) = readString fuel (some (c :: seen)) rest := by
  unfold escape
  split
  · rfl
  · rfl
  · rfl
  · rfl
  · rfl
  · rfl
  · rfl
  next hquote hbackslash _ _ _ _ _ =>
    split
    · next hcontrol =>
      simp only [List.cons_append, List.nil_append, readString, readEscaped_control hcontrol]
    · next hprintable =>
      -- a quote or a backslash would have been written as an escape
      rw [List.singleton_append, readString]
      · rw [if_neg hprintable, Option.map_some]
      · exact fun heq _ => hbackslash heq
      · exact hquote
      · exact fun _ heq _ => hbackslash heq
      · exact fun _ _ heq _ => hbackslash heq

/-- The characters up to the closing quote are read back. -/
theorem readString_flatMap {fuel : Nat} {seen cs : List Char} (h : cs.length < fuel) :
    readString fuel (some seen) (cs.flatMap escape ++ '"' :: rest)
      = .ok (some (seen.reverse ++ cs), rest) := by
  induction cs generalizing fuel seen with
  | nil =>
    obtain ⟨fuel, rfl⟩ := Nat.exists_eq_add_one_of_ne_zero (by omega : fuel ≠ 0)
    simp [readString]
  | cons c cs ih =>
    obtain ⟨fuel, rfl⟩ := Nat.exists_eq_add_one_of_ne_zero (by omega : fuel ≠ 0)
    rw [List.length_cons] at h
    rw [List.flatMap_cons, List.append_assoc, readString_escape, ih (by omega),
      List.reverse_cons, List.append_assoc, List.singleton_append]

theorem length_le_flatMap_escape (cs : List Char) : cs.length ≤ (cs.flatMap escape).length := by
  induction cs with
  | nil => simp
  | cons c cs ih =>
    have hc : 1 ≤ (escape c).length := by
      unfold escape
      split <;> first | simp | (split <;> simp)
    simp only [List.flatMap_cons, List.length_append, List.length_cons]
    omega

/-- A string between quotes is read back behind its opening quote, as a name or as a value. -/
theorem readString_inside (s : String) (rest : List Char) :
    readString ((s.toList.flatMap escape ++ '"' :: rest).length + 1) (some [])
      (s.toList.flatMap escape ++ '"' :: rest) = .ok (some s.toList, rest) := by
  have hlength := length_le_flatMap_escape s.toList
  rw [readString_flatMap (by rw [List.length_append]; omega), List.reverse_nil, List.nil_append]

theorem readStringNode_inside (s : String) (rest : List Char) :
    readStringNode (s.toList.flatMap escape ++ '"' :: rest) = (.string s, some rest) := by
  rw [readStringNode, readString_inside]
  simp

/-! ## Integers -/

theorem le_ofDigitChars (digits : List Char) (n : Nat) : n ≤ Nat.ofDigitChars 10 digits n := by
  induction digits generalizing n with
  | nil => simp
  | cons c digits ih =>
    rw [Nat.ofDigitChars_cons]
    have := ih (10 * n + (c.toNat - '0'.toNat))
    omega

/-- If the number fits, all of its digits find room. -/
theorem takeUp_eq {m : Magnitude} {digits : List Char}
    (h : Nat.ofDigitChars 10 digits m.significand < Nat.pow 2 64) :
    m.takeUp digits = ({ m with significand := Nat.ofDigitChars 10 digits m.significand }, []) := by
  induction digits generalizing m with
  | nil => simp [Magnitude.takeUp]
  | cons c digits ih =>
    have hcomm : 10 * m.significand + (c.toNat - '0'.toNat)
        = m.significand * 10 + (c.toNat - 48) := by
      rw [Nat.mul_comm]
      rfl
    rw [Nat.ofDigitChars_cons, hcomm] at h ⊢
    -- a part of the digits denotes no more than all of them
    have hroom : m.significand * 10 + (c.toNat - 48) < Nat.pow 2 64 :=
      Nat.lt_of_le_of_lt (le_ofDigitChars digits _) h
    rw [Magnitude.takeUp, if_pos hroom, ih h]

theorem ofWhole_toDigits {n : Nat} (h : n < Nat.pow 2 64) :
    Magnitude.ofWhole (Nat.toDigits 10 n) = ⟨n, 0⟩ := by
  have hvalue : Nat.ofDigitChars 10 (Nat.toDigits 10 n) 0 = n := Nat.ofDigitChars_ten_toDigits
  rw [Magnitude.ofWhole, takeUp_eq (by rwa [hvalue]), hvalue]
  rfl

/-- Only zero is written with a zero in front. -/
theorem eq_zero_of_toDigits {n : Nat} {digits : List Char} (h : Nat.toDigits 10 n = '0' :: digits) :
    n = 0 := by
  induction n using Nat.strong_induction_on generalizing digits with
  | _ n ih =>
    by_cases hn : n < 10
    · rw [Nat.toDigits_of_lt_base hn] at h
      have hzero : ∀ d < 10, Nat.digitChar d = '0' → d = 0 := by decide
      exact hzero n hn (List.cons.inj h).1
    · rw [Nat.toDigits_of_base_le (by omega) (by omega)] at h
      cases hfront : Nat.toDigits 10 (n / 10) with
      | nil => exact absurd hfront Nat.toDigits_ne_nil
      | cons c front =>
        rw [hfront] at h
        obtain rfl := (List.cons.inj h).1
        have hquotient : n / 10 = 0 := ih (n / 10) (by omega) hfront
        omega

theorem readUnsigned_toDigits (negative : Bool) {n : Nat} (hn : n < Nat.pow 2 64)
    (hrest : Stops Char.isDigit rest) :
    readUnsigned negative (Nat.toDigits 10 n ++ rest) = readAfterWhole negative ⟨n, 0⟩ rest := by
  have hall := Number.allDigits_toDigits n
  have hwhole := ofWhole_toDigits hn
  cases hdigits : Nat.toDigits 10 n with
  | nil => exact absurd hdigits Nat.toDigits_ne_nil
  | cons c digits =>
    rw [hdigits] at hall hwhole
    rw [List.cons_append]
    by_cases hc : c = '0'
    · subst hc
      obtain rfl := eq_zero_of_toDigits hdigits
      obtain rfl : digits = [] := by simpa using hdigits.symm
      cases rest with
      | nil => rfl
      | cons d rest => simp [readUnsigned, hrest d rfl]
    · have hbehind : ∀ d ∈ digits, d.isDigit = true := fun d hd => hall d (List.mem_cons_of_mem _ hd)
      rw [readUnsigned, if_pos (hall c List.mem_cons_self), hrest.takeWhile_append hbehind,
        hrest.dropWhile_append hbehind, hwhole]
      exact hc

/-- What may stand behind a value that is part of another one. -/
def Delimits (rest : List Char) : Prop := ∀ c ∈ rest.head?, c ∈ [',', '\n', ']', '\x7d']

theorem delimits_nil : Delimits [] := by
  intro c hc
  cases hc

theorem delimits_cons {c : Char} (hc : c ∈ [',', '\n', ']', '\x7d']) (rest : List Char) :
    Delimits (c :: rest) := by
  intro d hd
  rw [List.head?_cons, Option.mem_some_iff] at hd
  rwa [← hd]

theorem isDigit_of_mem_marks {c : Char} {marks : List Char} (h : marks.all (!Char.isDigit ·) = true)
    (hc : c ∈ marks) : c.isDigit = false := by
  simpa using List.all_eq_true.1 h c hc

theorem Delimits.stops (h : Delimits rest) : Stops Char.isDigit rest := fun c hc =>
  isDigit_of_mem_marks (by decide) (h c hc)

theorem Delimits.readAfterWhole {negative : Bool} {m : Magnitude} {n : Int} (h : Delimits rest)
    (hn : integerOf? negative m = some n) :
    readAfterWhole negative m rest = (.number (.integer n), some rest) := by
  cases rest with
  | nil => simp [Reader.readAfterWhole, readAfterDigits, hn]
  | cons c rest =>
    -- neither a point nor the mark of an exponent
    have hc := h c rfl
    simp only [List.mem_cons, List.not_mem_nil, or_false] at hc
    rcases hc with rfl | rfl | rfl | rfl <;> simp [Reader.readAfterWhole, readAfterDigits, hn]

theorem integerOf?_natAbs {n : Int} (hn : 0 ≤ n) : integerOf? false ⟨n.natAbs, 0⟩ = some n := by
  simp only [integerOf?, ne_eq, not_true_eq_false, if_false, Bool.not_false, if_true]
  exact congrArg some (Int.natAbs_of_nonneg hn)

theorem integerOf?_natAbs_of_neg {n : Int} (hn : n < 0) (hroom : n.natAbs ≤ Nat.pow 2 63) :
    integerOf? true ⟨n.natAbs, 0⟩ = some n := by
  have hpos : 0 < n.natAbs := by omega
  simp only [integerOf?, hpos, hroom, ne_eq, not_true_eq_false, Bool.not_true, Bool.false_eq_true,
    if_false, and_self, if_true, Option.some.injEq]
  omega

end Reader

end BlockPipeline.Json
