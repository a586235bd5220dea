import BlockPipeline.Json.Value
import Mathlib.Tactic.Set
import Mathlib.Tactic.SplitIfs

set_option autoImplicit false

/-! # What the text of a number looks like

Whatever its value, a number is written as digits, perhaps with a point and digits behind them, and
perhaps with an exponent (`numeral_text`). In front of that stands a sign if the number is negative
(`text_eq_sign`). -/

namespace BlockPipeline

namespace Number

def AllDigits (cs : List Char) : Prop := ∀ c ∈ cs, c.isDigit = true

/-- Digits, and what may follow them in a number. -/
structure Numeral (text : List Char) : Prop where
  parts : ∃ whole fraction exponent : List Char, text = whole ++ fraction ++ exponent ∧
    whole ≠ [] ∧ AllDigits whole ∧
    (fraction = [] ∨ ∃ digits, fraction = '.' :: digits ∧ AllDigits digits) ∧
    (exponent = [] ∨ ∃ sign digits, exponent = 'e' :: (sign ++ digits) ∧
      (sign = [] ∨ sign = ['+'] ∨ sign = ['-']) ∧ digits ≠ [] ∧ AllDigits digits)

theorem allDigits_toDigits (n : Nat) : AllDigits (Nat.toDigits 10 n) := fun _ hc =>
  Nat.isDigit_of_mem_toDigits (by omega) (by omega) hc

theorem AllDigits.append {cs ds : List Char} (hcs : AllDigits cs) (hds : AllDigits ds) :
    AllDigits (cs ++ ds) := by
  intro c hc
  rcases List.mem_append.1 hc with hc | hc
  · exact hcs c hc
  · exact hds c hc

theorem allDigits_zeros (n : Nat) : AllDigits (List.replicate n '0') := by
  intro c hc
  rw [List.eq_of_mem_replicate hc]
  rfl

theorem AllDigits.sublist {cs ds : List Char} (hds : AllDigits ds) (h : cs.Sublist ds) :
    AllDigits cs := fun c hc => hds c (h.subset hc)

theorem numeral_digits (n : Nat) : Numeral (Nat.toDigits 10 n) :=
  ⟨Nat.toDigits 10 n, [], [], by simp, Nat.toDigits_ne_nil, allDigits_toDigits n, .inl rfl, .inl rfl⟩

theorem numeral_positional (d : Decimal) : Numeral d.positional.toList := by
  have hds := allDigits_toDigits d.digits
  have hne : Nat.toDigits 10 d.digits ≠ [] := Nat.toDigits_ne_nil
  unfold Decimal.positional
  simp only
  split
  · refine ⟨Nat.toDigits 10 d.digits ++ List.replicate d.exponent.toNat '0', ['.', '0'], [], ?_⟩
    refine ⟨by simp, by simp [hne], hds.append (allDigits_zeros _), .inr ⟨['0'], rfl, ?_⟩, .inl rfl⟩
    exact allDigits_zeros 1
  · set places := (-d.exponent).toNat
    set padded := List.replicate (places + 1 - (Nat.toDigits 10 d.digits).length) '0' ++
      Nat.toDigits 10 d.digits
    have hpadded : AllDigits padded := (allDigits_zeros _).append hds
    -- the zeros in front leave at least one digit before the point
    have hlength : places < padded.length := by
      simp only [padded, List.length_append, List.length_replicate]
      omega
    refine ⟨padded.take (padded.length - places), '.' :: padded.drop (padded.length - places), [], ?_⟩
    refine ⟨by simp, ?_, hpadded.sublist (List.take_sublist _ _), .inr ⟨_, rfl, ?_⟩, .inl rfl⟩
    · intro hnil
      have := congrArg List.length hnil
      simp only [List.length_take, List.length_nil] at this
      omega
    · exact hpadded.sublist (List.drop_sublist _ _)

theorem numeral_scientific (d : Decimal) (exponentPlus : Bool) :
    Numeral (d.scientific exponentPlus).toList := by
  have hds := allDigits_toDigits d.digits
  have hne : Nat.toDigits 10 d.digits ≠ [] := Nat.toDigits_ne_nil
  unfold Decimal.scientific
  simp only
  rw [String.toList_ofList, List.append_assoc, List.cons_append]
  refine ⟨_, _, _, rfl, by simp [hne], hds.sublist (List.take_sublist 1 _), ?_, .inr ⟨_, _, rfl, ?_⟩⟩
  · split
    · exact .inl rfl
    · exact .inr ⟨_, rfl, hds.sublist (List.drop_sublist 1 _)⟩
  · refine ⟨?_, Nat.toDigits_ne_nil, allDigits_toDigits _⟩
    split_ifs <;> simp

/-- The sign of a value and the text of its amount. -/
theorem render_eq_sign (layout : Layout) (format : Format) (x : Finite) :
    (layout.render format x).toList = (if x.negative then ['-'] else []) ++
      (layout.render format { x with negative := false }).toList := by
  unfold Layout.render
  cases x.negative with
  | false => simp
  | true =>
    simp only [if_true, Bool.false_eq_true, if_false]
    split_ifs <;> simp

theorem numeral_render (layout : Layout) (format : Format) {x : Finite} (h : x.negative = false) :
    Numeral (layout.render format x).toList := by
  unfold Layout.render
  simp only [h, Bool.false_eq_true, if_false, String.empty_append]
  split
  · exact ⟨['0'], ['.', '0'], [], rfl, by simp, allDigits_zeros 1,
      .inr ⟨['0'], rfl, allDigits_zeros 1⟩, .inl rfl⟩
  split
  · exact numeral_positional _
  · exact numeral_scientific _ _

/-- What holds of digits and of the marks of numbers holds of all characters of a numeral. -/
theorem Numeral.forall_mem {p : Char → Prop} (hdigit : ∀ c : Char, c.isDigit = true → p c)
    (hmarks : ∀ c ∈ ['.', 'e', '+', '-'], p c) {text : List Char} (h : Numeral text) :
    ∀ c ∈ text, p c := by
  simp only [List.forall_mem_cons] at hmarks
  obtain ⟨hpoint, he, hplus, hminus, -⟩ := hmarks
  obtain ⟨whole, fraction, exponent, rfl, -, hwhole, hfraction, hexponent⟩ := h.parts
  have hdigits : ∀ {cs : List Char}, AllDigits cs → ∀ c ∈ cs, p c := fun hcs c hc =>
    hdigit c (hcs c hc)
  intro c hc
  rcases List.mem_append.1 hc with hc | hc
  · rcases List.mem_append.1 hc with hc | hc
    · exact hdigits hwhole c hc
    · rcases hfraction with rfl | ⟨digits, rfl, hall⟩
      · cases hc
      · rcases List.mem_cons.1 hc with rfl | hc
        · exact hpoint
        · exact hdigits hall c hc
  · rcases hexponent with rfl | ⟨sign, digits, rfl, hsign, -, hall⟩
    · cases hc
    · rcases List.mem_cons.1 hc with rfl | hc
      · exact he
      · rcases List.mem_append.1 hc with hc | hc
        · rcases hsign with rfl | rfl | rfl
          · cases hc
          · exact (List.mem_singleton.1 hc) ▸ hplus
          · exact (List.mem_singleton.1 hc) ▸ hminus
        · exact hdigits hall c hc

end Number

namespace Json.Number

/-- Has the number a sign? -/
def isNegative : Json.Number → Bool
  | .integer n => n < 0
  | .float x => x.negative

/-- The number without its sign. -/
def unsigned : Json.Number → Json.Number
  | .integer n => .integer n.natAbs
  | .float x => .float { x with negative := false }

/-- The text of a number is a sign, if the number is negative, and the text of its amount. -/
theorem text_eq_sign (n : Json.Number) :
    n.text.toList = (if n.isNegative then ['-'] else []) ++ n.unsigned.text.toList := by
  cases n with
  | integer n =>
    simp only [text, isNegative, unsigned, Text.integerText, Text.naturalText, decide_eq_true_eq]
    rw [if_neg (by omega : ¬ (n.natAbs : Int) < 0), Int.natAbs_natCast]
    split
    · rw [String.toList_ofList, String.toList_ofList, List.singleton_append]
    · rw [List.nil_append]
  | float x => exact BlockPipeline.Number.render_eq_sign _ _ x

theorem numeral_text (n : Json.Number) : BlockPipeline.Number.Numeral n.unsigned.text.toList := by
  cases n with
  | integer n =>
    simp only [text, unsigned, Text.integerText, Text.naturalText]
    rw [if_neg (by omega : ¬ (n.natAbs : Int) < 0), String.toList_ofList]
    exact BlockPipeline.Number.numeral_digits _
  | float x => exact BlockPipeline.Number.numeral_render _ _ rfl

/-- No number is written with a blank. -/
theorem blank_not_mem (n : Json.Number) : ' ' ∉ n.text.toList := by
  have hamount : ∀ c ∈ n.unsigned.text.toList, c ≠ ' ' :=
    n.numeral_text.forall_mem (by rintro c hc rfl; cases hc) (by simp)
  intro hmem
  rw [n.text_eq_sign] at hmem
  rcases List.mem_append.1 hmem with hsign | hrest
  · split at hsign
    · exact absurd (List.mem_singleton.1 hsign) (by decide)
    · cases hsign
  · exact hamount ' ' hrest rfl

end Json.Number

end BlockPipeline
