import BlockPipeline.Run.Visit
import Mathlib.Data.List.Nodup

set_option autoImplicit false

/-! # Looking up visits

Visits are only ever added at the end, so what was recorded of a block stays what is found. -/

namespace BlockPipeline

/-- Of a list with one more item behind it, an item is the last one or stands among the others. -/
theorem split_append {α : Type} {items before after : List α} {item last : α}
    (h : items ++ [last] = before ++ item :: after) :
    (after = [] ∧ items = before ∧ last = item) ∨
      ∃ rest, after = rest ++ [last] ∧ items = before ++ item :: rest := by
  rcases List.eq_nil_or_concat after with rfl | ⟨rest, final, rfl⟩
  · exact .inl ⟨rfl, List.append_singleton_inj.1 h⟩
  · rw [List.concat_eq_append, ← List.cons_append, ← List.append_assoc] at h
    obtain ⟨hitems, rfl⟩ := List.append_singleton_inj.1 h
    exact .inr ⟨rest, List.concat_eq_append, hitems⟩

namespace Visits

variable {visits : Visits} {id : BlockId} {outcome : Outcome} {visit : Visit}

theorem outcome?_eq_none_iff : visits.outcome? id = none ↔ id ∉ visits.map Visit.block := by
  simp [outcome?, List.find?_eq_none]

theorem outcome?_isSome_iff : (visits.outcome? id).isSome ↔ id ∈ visits.map Visit.block := by
  rw [Option.isSome_iff_ne_none, ne_eq, outcome?_eq_none_iff, not_not]

theorem mem_of_outcome? (h : visits.outcome? id = some outcome) : ⟨id, outcome⟩ ∈ visits := by
  obtain ⟨visit, hfind, rfl⟩ := Option.map_eq_some_iff.1 h
  have hid : visit.block = id := by simpa using List.find?_some hfind
  subst hid
  exact List.mem_of_find?_eq_some hfind

/-- If no block is visited twice, what is found of a block is what was recorded of it. -/
theorem outcome?_eq_some_iff (h : (visits.map Visit.block).Nodup) :
    visits.outcome? id = some outcome ↔ ⟨id, outcome⟩ ∈ visits := by
  refine ⟨mem_of_outcome?, fun hmem => ?_⟩
  obtain ⟨found, hfound⟩ := Option.isSome_iff_exists.1
    (outcome?_isSome_iff.2 (List.mem_map_of_mem (f := Visit.block) hmem))
  have hsame := List.inj_on_of_nodup_map h (mem_of_outcome? hfound) hmem rfl
  rw [hfound, (Visit.mk.inj hsame).2]

theorem outcome?_append (visits : Visits) (visit : Visit) (id : BlockId) :
    outcome? (visits ++ [visit]) id =
      (visits.outcome? id).or (if visit.block = id then some visit.outcome else none) := by
  rw [outcome?, outcome?, List.find?_append, List.find?_singleton]
  cases visits.find? (·.block == id) with
  | some found => rfl
  | none =>
    by_cases hsame : visit.block = id
    · simp [hsame]
    · simp [hsame]

/-- A visit that is added does not change what is found of the blocks before. -/
theorem outcome?_append_of_some (h : visits.outcome? id = some outcome) :
    outcome? (visits ++ [visit]) id = some outcome := by
  rw [outcome?_append, h, Option.some_or]

theorem outcome?_append_self (h : visits.outcome? id = none) :
    outcome? (visits ++ [⟨id, outcome⟩]) id = some outcome := by
  rw [outcome?_append, h, Option.none_or, if_pos rfl]

theorem outcome?_append_of_ne (h : visit.block ≠ id) :
    outcome? (visits ++ [visit]) id = visits.outcome? id := by
  rw [outcome?_append, if_neg h, Option.or_none]

theorem outcome?_append_cases (h : outcome? (visits ++ [visit]) id = some outcome) :
    visits.outcome? id = some outcome ∨ visit = ⟨id, outcome⟩ := by
  rw [outcome?_append] at h
  cases hbefore : visits.outcome? id with
  | some found =>
    rw [hbefore] at h
    exact .inl h
  | none =>
    rw [hbefore, Option.none_or] at h
    by_cases hsame : visit.block = id
    · rw [if_pos hsame] at h
      subst hsame
      exact .inr (by rw [← Option.some.inj h])
    · rw [if_neg hsame] at h
      cases h

end Visits

end BlockPipeline
