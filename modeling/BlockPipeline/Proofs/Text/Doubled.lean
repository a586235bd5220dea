import BlockPipeline.Text.Parts

set_option autoImplicit false

/-! # Quotes put on and taken off

Taking the quotes off a quoted text gives the text back. To its characters only quotes are added, so
a pattern without quotes that begins a quoted text begins the text itself. -/

namespace BlockPipeline

namespace Text

theorem undoubled_doubled (q : Char) (s : List Char) : undoubled q (doubled q s) = s := by
  induction s with
  | nil => rfl
  | cons c s ih =>
    rw [doubled]
    split
    · next hc =>
      rw [undoubled, if_pos ⟨rfl, rfl⟩, ih, hc]
    · next hc =>
      cases hs : doubled q s with
      | nil =>
        rw [hs] at ih
        rw [← ih]
        rfl
      | cons d rest =>
        rw [hs] at ih
        rw [undoubled, if_neg (fun h => hc h.1), ih]

theorem unquoted?_quoted (q : Char) (s : List Char) : unquoted? q (quoted q s) = some s := by
  rw [quoted, List.cons_append, unquoted?, if_pos ⟨rfl, List.getLast?_concat⟩,
    List.dropLast_concat, undoubled_doubled]

theorem length_le_doubled (q : Char) (s : List Char) : s.length ≤ (doubled q s).length := by
  induction s with
  | nil => exact Nat.le_refl 0
  | cons c s ih =>
    rw [doubled]
    split
    · simp only [List.length_cons]
      omega
    · simp only [List.length_cons]
      omega

/-- No text is its own quotation. -/
theorem quoted_ne (q : Char) (s : List Char) : quoted q s ≠ s := by
  intro h
  have hlength := congrArg List.length h
  have hdoubled := length_le_doubled q s
  rw [quoted, List.length_append, List.length_cons, List.length_singleton] at hlength
  omega

theorem mem_doubled {q c : Char} {s : List Char} (h : c ∈ doubled q s) : c = q ∨ c ∈ s := by
  induction s with
  | nil => cases h
  | cons d s ih =>
    rw [doubled] at h
    split at h
    · simp only [List.mem_cons] at h ⊢
      rcases h with h | h | h
      · exact .inl h
      · exact .inl h
      · exact (ih h).imp_right .inr
    · simp only [List.mem_cons] at h ⊢
      rcases h with h | h
      · exact .inr (.inl h)
      · exact (ih h).imp_right .inr

theorem mem_quoted {q c : Char} {s : List Char} (h : c ∈ quoted q s) : c = q ∨ c ∈ s := by
  rw [quoted, List.mem_append, List.mem_cons, List.mem_singleton] at h
  rcases h with (h | h) | h
  · exact .inl h
  · exact mem_doubled h
  · exact .inl h

/-- A pattern without quotes at the beginning of a quoted text is at the beginning of the text. -/
theorem prefix_of_prefix_doubled {q : Char} {pattern : List Char} (hq : q ∉ pattern)
    {s rest : List Char} (h : pattern <+: doubled q s ++ q :: rest) : pattern <+: s := by
  induction pattern generalizing s with
  | nil => exact List.nil_prefix
  | cons p pattern ih =>
    rw [List.mem_cons, not_or] at hq
    cases s with
    | nil =>
      obtain ⟨hp, -⟩ := List.cons_prefix_cons.1 h
      exact absurd hp.symm hq.1
    | cons c s =>
      rw [doubled] at h
      split at h
      · obtain ⟨hp, -⟩ := List.cons_prefix_cons.1 h
        exact absurd hp.symm hq.1
      · obtain ⟨hp, hrest⟩ := List.cons_prefix_cons.1 h
        exact List.cons_prefix_cons.2 ⟨hp, ih hq.2 hrest⟩

theorem prefix_of_afterStart? {pattern text rest : List Char}
    (h : afterStart? pattern text = some rest) : pattern <+: text := by
  induction pattern generalizing text with
  | nil => exact List.nil_prefix
  | cons p pattern ih =>
    cases text with
    | nil => cases h
    | cons c text =>
      rw [afterStart?] at h
      split at h
      · next hp => exact List.cons_prefix_cons.2 ⟨hp, ih h⟩
      · cases h

end Text

end BlockPipeline
