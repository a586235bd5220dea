import Mathlib.Data.List.TakeWhile

set_option autoImplicit false

/-! # Where a run of characters stops

A text that does not begin with a character of a class stops a run of such characters in front of it:
exactly the run is taken. -/

namespace BlockPipeline.Text

/-- The text does not begin with a character of the class. -/
def Stops (p : Char → Bool) (rest : List Char) : Prop := ∀ c ∈ rest.head?, p c = false

variable {p : Char → Bool} {taken rest : List Char}

theorem stops_cons {c : Char} (hc : p c = false) (rest : List Char) : Stops p (c :: rest) := by
  intro d hd
  rw [List.head?_cons, Option.mem_some_iff] at hd
  rwa [← hd]

instance : ∀ rest : List Char, Decidable (Stops p rest)
  | [] => isTrue nofun
  | c :: rest => decidable_of_iff (p c = false) ⟨fun h => stops_cons h rest, fun h => h c rfl⟩

theorem Stops.takeWhile_append (h : Stops p rest) (htaken : ∀ c ∈ taken, p c = true) :
    (taken ++ rest).takeWhile p = taken := by
  rw [List.takeWhile_append_of_pos htaken]
  cases rest with
  | nil => simp
  | cons c rest => simp [h c rfl]

theorem Stops.dropWhile_append (h : Stops p rest) (htaken : ∀ c ∈ taken, p c = true) :
    (taken ++ rest).dropWhile p = rest := by
  rw [List.dropWhile_append_of_pos htaken]
  cases rest with
  | nil => rfl
  | cons c rest => simp [h c rfl]

end BlockPipeline.Text
