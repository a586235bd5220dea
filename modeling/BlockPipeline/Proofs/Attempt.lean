set_option autoImplicit false

/-! # Edits that may fail

An edit gives the edited value or an error. What is there afterwards is the edited value, or else
what was there before: `settled` says so once for all edits. -/

namespace BlockPipeline

variable {ε α β : Type}

/-- What is there after an attempt: its result, or the former value if it fails. -/
def settled (before : α) : Except ε α → α
  | .ok after => after
  | .error _ => before

/-- What holds before an attempt and after its success holds after the attempt. -/
theorem settled_cases {motive : α → Prop} {before : α} {attempt : Except ε α}
    (hbefore : motive before) (hafter : ∀ after, attempt = .ok after → motive after) :
    motive (settled before attempt) := by
  cases attempt with
  | ok after => exact hafter after rfl
  | error _ => exact hbefore

theorem bind_eq_ok_iff {x : Except ε α} {f : α → Except ε β} {b : β} :
    x >>= f = .ok b ↔ ∃ a, x = .ok a ∧ f a = .ok b := by
  cases x with
  | ok a => simp [bind, Except.bind]
  | error e => simp [bind, Except.bind]

/-- What every step of a fold keeps holds at its end. -/
theorem foldlM_keeps {motive : β → Prop} {step : β → α → Except ε β} {items : List α}
    {before after : β} (hstep : ∀ item b b', motive b → step b item = .ok b' → motive b')
    (hbefore : motive before) (h : items.foldlM step before = .ok after) : motive after := by
  induction items generalizing before with
  | nil =>
    obtain rfl := Except.ok.inj h
    exact hbefore
  | cons item rest ih =>
    rw [List.foldlM_cons] at h
    obtain ⟨next, hnext, hrest⟩ := bind_eq_ok_iff.1 h
    exact ih (hstep item before next hbefore hnext) hrest

theorem map_eq_ok_iff {x : Except ε α} {f : α → β} {b : β} :
    f <$> x = .ok b ↔ ∃ a, x = .ok a ∧ f a = b := by
  cases x with
  | ok a => simp [Functor.map, Except.map]
  | error e => simp [Functor.map, Except.map]

theorem toOption_eq_some_iff {x : Except ε α} {a : α} : x.toOption = some a ↔ x = .ok a := by
  cases x with
  | ok a => simp [Except.toOption]
  | error e => simp [Except.toOption]

end BlockPipeline
