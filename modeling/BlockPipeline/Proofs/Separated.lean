import Mathlib.Data.List.Infix

set_option autoImplicit false

/-! # Items with a separator between each two

What stands in such a list is the separator or stands in an item, and each item stands in it whole. -/

namespace BlockPipeline

variable {α : Type} {separator x : α} {item : List α} {items : List (List α)}

theorem mem_or_mem_of_mem_intercalate {separators : List α} (h : x ∈ separators.intercalate items) :
    x ∈ separators ∨ ∃ item ∈ items, x ∈ item := by
  induction items with
  | nil => cases h
  | cons item items ih =>
    cases items with
    | nil =>
      rw [List.intercalate_singleton] at h
      exact .inr ⟨item, List.mem_cons_self, h⟩
    | cons next items =>
      rw [List.intercalate_cons_cons, List.append_assoc] at h
      rcases List.mem_append.1 h with h | h
      · exact .inr ⟨item, List.mem_cons_self, h⟩
      · rcases List.mem_append.1 h with h | h
        · exact .inl h
        · rcases ih h with h | ⟨other, hother, h⟩
          · exact .inl h
          · exact .inr ⟨other, List.mem_cons_of_mem _ hother, h⟩

theorem eq_or_mem_of_mem_intercalate (h : x ∈ [separator].intercalate items) :
    x = separator ∨ ∃ item ∈ items, x ∈ item :=
  (mem_or_mem_of_mem_intercalate h).imp_left List.mem_singleton.1

theorem infix_intercalate (h : item ∈ items) : item <:+: [separator].intercalate items := by
  induction items with
  | nil => cases h
  | cons first items ih =>
    cases items with
    | nil =>
      rw [List.mem_singleton.1 h, List.intercalate_singleton]
    | cons next items =>
      rw [List.intercalate_cons_cons, List.append_assoc]
      rcases List.mem_cons.1 h with rfl | h
      · exact List.infix_append_left
      · exact List.infix_append_of_infix_right (List.infix_append_of_infix_right (ih h))

theorem mem_intercalate_iff (hne : x ≠ separator) :
    x ∈ [separator].intercalate items ↔ ∃ item ∈ items, x ∈ item := by
  constructor
  · exact fun h => (eq_or_mem_of_mem_intercalate h).resolve_left hne
  · rintro ⟨item, hitem, h⟩
    exact (infix_intercalate hitem).subset h

/-- A separator behind each item is one between each two, if an empty item is added. -/
theorem flatMap_append_eq_intercalate (separators : List α) (items : List (List α)) :
    items.flatMap (· ++ separators) = separators.intercalate (items ++ [[]]) := by
  induction items with
  | nil => rfl
  | cons item items ih =>
    obtain ⟨next, rest, hrest⟩ : ∃ next rest, items ++ [[]] = next :: rest :=
      List.exists_cons_of_ne_nil (by simp)
    rw [List.flatMap_cons, ih, List.cons_append, hrest, List.intercalate_cons_cons]

end BlockPipeline
