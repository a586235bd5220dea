import BlockPipeline.Engine.Basic

set_option autoImplicit false

/-! # Actions in a row

The second of two actions starts from the state in which the first one left the engine, unless the
first one failed. -/

namespace BlockPipeline.Action

variable {ε σ α β : Type}

theorem pure_run (a : α) (state : σ) : (pure a : Action ε σ α) state = (.ok a, state) := rfl

theorem bind_run (x : Action ε σ α) (f : α → Action ε σ β) (state : σ) :
    (x >>= f) state = match x state with
      | (.ok a, middle) => f a middle
      | (.error error, middle) => (.error error, middle) := by
  simp only [bind, ExceptT.bind, ExceptT.mk, ExceptT.bindCont, StateT.bind]
  cases x state with
  | mk answer middle => cases answer <;> rfl

/-- Two actions in a row succeed if both do. -/
theorem bind_run_eq_ok {x : Action ε σ α} {f : α → Action ε σ β} {state after : σ} {b : β}
    (h : (x >>= f) state = (.ok b, after)) :
    ∃ a middle, x state = (.ok a, middle) ∧ f a middle = (.ok b, after) := by
  rw [bind_run] at h
  cases hx : x state with
  | mk answer middle =>
    rw [hx] at h
    cases answer with
    | ok a => exact ⟨a, middle, rfl, h⟩
    | error error => cases h

end BlockPipeline.Action
