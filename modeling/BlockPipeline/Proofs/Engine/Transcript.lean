import BlockPipeline.Proofs.Engine.Action

set_option autoImplicit false

/-! # Transcripts

On an engine that notes the calls that it gets, an action `Asks` for a list of calls if it makes these
calls in order, up to the first one that is refused, and fails with that error; actions in a row ask
for one list after the other (`Asks.bind`).

Noting calls changes no answer: the engine that notes them `Mirrors` the one that does not. And all
that has become of the state of an engine has become of it by the calls (`transcribing_keeps`). -/

namespace BlockPipeline

/-- No call was refused. -/
def Accepted (transcript : Transcript) : Prop := ∀ exchange ∈ transcript, exchange.refusal = none

instance (transcript : Transcript) : Decidable (Accepted transcript) :=
  inferInstanceAs (Decidable (∀ exchange ∈ transcript, exchange.refusal = none))

variable {σ τ α β : Type}

/-! ## The calls that an action asks for -/

/-- The calls were made one after the other, all of them or up to one that was refused. -/
inductive Answered : List Call → Transcript → Option EngineError → Prop where
  | done : Answered [] [] none
  | accepted {call : Call} {calls : List Call} {transcript : Transcript}
    {refusal : Option EngineError} (rest : Answered calls transcript refusal) :
    Answered (call :: calls) (⟨call, none⟩ :: transcript) refusal
  | refused (call : Call) (calls : List Call) (error : EngineError) :
    Answered (call :: calls) [⟨call, some error⟩] (some error)

namespace Answered

variable {calls more : List Call} {transcript further : Transcript} {refusal : Option EngineError}

theorem append (h : Answered calls transcript none) (hmore : Answered more further refusal) :
    Answered (calls ++ more) (transcript ++ further) refusal := by
  induction calls generalizing transcript with
  | nil =>
    cases h
    exact hmore
  | cons call calls ih =>
    cases h with
    | accepted rest => exact .accepted (ih rest)

theorem append_of_refused {error : EngineError} (h : Answered calls transcript (some error))
    (more : List Call) : Answered (calls ++ more) transcript (some error) := by
  induction calls generalizing transcript with
  | nil => cases h
  | cons call calls ih =>
    cases h with
    | accepted rest => exact .accepted (ih rest)
    | refused => exact .refused call (calls ++ more) error

/-- If no call was refused, all of them were made. -/
theorem of_accepted (h : Answered calls transcript refusal) (haccepted : Accepted transcript) :
    refusal = none ∧ transcript.map Exchange.call = calls := by
  induction h with
  | done => exact ⟨rfl, rfl⟩
  | accepted rest ih =>
    obtain ⟨hnone, hcalls⟩ := ih fun exchange hmem => haccepted exchange (List.mem_cons_of_mem _ hmem)
    exact ⟨hnone, by rw [List.map_cons, hcalls]⟩
  | refused call calls error => cases haccepted ⟨call, some error⟩ (List.mem_singleton_self _)

end Answered

/-- The action makes these calls, up to one that is refused, and fails if there is one. -/
def Asks (action : Action EngineError (σ × Transcript) α) (calls : List Call) : Prop :=
  ∀ state transcript, ∃ answer after segment,
    action (state, transcript) = (answer, (after, transcript ++ segment)) ∧
      Answered calls segment (refusal? answer)

namespace Asks

theorem pure (a : α) : Asks (pure a : Action EngineError (σ × Transcript) α) [] :=
  fun state transcript => ⟨.ok a, state, [], by rw [List.append_nil, Action.pure_run], .done⟩

theorem exchanging (call : Call) (action : Action EngineError σ α) :
    Asks (Engine.exchanging call action) [call] := by
  intro state transcript
  cases haction : action state with
  | mk answer after =>
    refine ⟨answer, after, [⟨call, refusal? answer⟩], ?_, ?_⟩
    · rw [Engine.exchanging]
      simp only [haction]
    · cases answer with
      | ok a => exact .accepted .done
      | error error => exact .refused call [] error

/-- Actions in a row ask for one list of calls after the other. -/
theorem bind {action : Action EngineError (σ × Transcript) α}
    {next : α → Action EngineError (σ × Transcript) β} {calls more : List Call}
    (h : Asks action calls) (hnext : ∀ a, Asks (next a) more) :
    Asks (action >>= next) (calls ++ more) := by
  intro state transcript
  obtain ⟨answer, middle, segment, haction, hsegment⟩ := h state transcript
  rw [Action.bind_run, haction]
  cases answer with
  | error error => exact ⟨.error error, middle, segment, rfl, hsegment.append_of_refused more⟩
  | ok a =>
    obtain ⟨final, after, further, hnext, hfurther⟩ := hnext a middle (transcript ++ segment)
    refine ⟨final, after, segment ++ further, ?_, hsegment.append hfurther⟩
    rw [← List.append_assoc]
    exact hnext

end Asks

/-! ## Engines with the same answers -/

/-- The one action does on a part of the state what the other one does on the whole of its own. -/
def Action.Mirrors (project : τ → σ) (mirror : Action EngineError τ α)
    (action : Action EngineError σ α) : Prop :=
  ∀ state, action (project state) = ((mirror state).1, project (mirror state).2)

theorem Action.Mirrors.pure (project : τ → σ) (a : α) :
    Action.Mirrors project (pure a : Action EngineError τ α) (pure a) := fun _ => rfl

theorem Action.Mirrors.bind {project : τ → σ} {mirror : Action EngineError τ α}
    {action : Action EngineError σ α} {mirror' : α → Action EngineError τ β}
    {action' : α → Action EngineError σ β} (h : Action.Mirrors project mirror action)
    (h' : ∀ a, Action.Mirrors project (mirror' a) (action' a)) :
    Action.Mirrors project (mirror >>= mirror') (action >>= action') := by
  intro state
  rw [Action.bind_run, Action.bind_run, h state]
  cases mirror state with
  | mk answer middle =>
    cases answer with
    | ok a => exact h' a middle
    | error error => rfl

/-- One engine gives on a part of its state the answers that the other one gives. -/
structure Engine.Mirrors (project : τ → σ) (mirror : Engine τ) (engine : Engine σ) : Prop where
  execute : ∀ sql, Action.Mirrors project (mirror.execute sql) (engine.execute sql)
  describe : ∀ table, Action.Mirrors project (mirror.describe table) (engine.describe table)

theorem Engine.transcribing_mirrors (engine : Engine σ) :
    Engine.Mirrors Prod.fst engine.transcribing engine :=
  ⟨fun _ _ => rfl, fun _ _ => rfl⟩

/-! ## What calls keep -/

/-- What holds of the state before the action holds after it, also if the action fails. -/
def Action.Keeps (holds : σ → Prop) (action : Action EngineError σ α) : Prop :=
  ∀ state, holds state → holds (action state).2

theorem Action.Keeps.pure (holds : σ → Prop) (a : α) :
    Action.Keeps holds (pure a : Action EngineError σ α) := fun _ h => h

theorem Action.Keeps.bind {holds : σ → Prop} {action : Action EngineError σ α}
    {next : α → Action EngineError σ β} (h : Action.Keeps holds action)
    (hnext : ∀ a, Action.Keeps holds (next a)) : Action.Keeps holds (action >>= next) := by
  intro state hstate
  have hmiddle := h state hstate
  rw [Action.bind_run]
  cases haction : action state with
  | mk answer middle =>
    rw [haction] at hmiddle
    cases answer with
    | ok a => exact hnext a middle hmiddle
    | error error => exact hmiddle

/-- No statement and no description of a table changes that it holds. -/
structure Engine.Keeps (engine : Engine σ) (holds : σ → Prop) : Prop where
  execute : ∀ sql, Action.Keeps holds (engine.execute sql)
  describe : ∀ table, Action.Keeps holds (engine.describe table)

/-- The state in which a call leaves the engine. -/
def Engine.respond (engine : Engine σ) (state : σ) : Call → σ
  | .execute sql => (engine.execute sql state).2
  | .describe table => (engine.describe table state).2
  | .register table content => (engine.register table content state).2

/-- The calls that were noted lead from the first state to the present one. -/
def Engine.Noted (engine : Engine σ) (start : σ) (present : σ × Transcript) : Prop :=
  present.1 = (present.2.map Exchange.call).foldl engine.respond start

theorem Engine.noted_nil (engine : Engine σ) (start : σ) : engine.Noted start (start, []) := rfl

theorem Engine.Noted.append {engine : Engine σ} {start state : σ} {transcript : Transcript}
    (h : engine.Noted start (state, transcript)) (call : Call) (refusal : Option EngineError) :
    engine.Noted start (engine.respond state call, transcript ++ [⟨call, refusal⟩]) := by
  have hstate : state = (transcript.map Exchange.call).foldl engine.respond start := h
  rw [Noted, List.map_append, List.foldl_append, ← hstate]
  rfl

/-- The calls of an engine that notes them account for all changes of its state. -/
theorem Engine.transcribing_keeps (engine : Engine σ) (start : σ) :
    engine.transcribing.Keeps (engine.Noted start) :=
  ⟨fun sql _ h => h.append (.execute sql) _, fun table _ h => h.append (.describe table) _⟩

end BlockPipeline
