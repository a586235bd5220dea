import BlockPipeline.Proofs.Attempt
import BlockPipeline.Proofs.Engine.Action
import BlockPipeline.Proofs.Graph.Outline
import BlockPipeline.Run.Cascade

set_option autoImplicit false

/-! # Running one block

A run of a block can fail in several places, before or after the block has been marked as running.
All of them come to the same: `attempt` says what the calls to the engine give, a table with its
result or a message, and `conclude` what becomes of the session then. `runBlock` is one after the
other (`runBlock_eq`), so no proof needs to look into it again. -/

namespace BlockPipeline

variable {σ : Type} {g : Graph} {s : Session} {id other : BlockId} {block : Block}

/-! ## What becomes of a session -/

/-- The block after a run that recorded this of it. -/
def Block.settle (block : Block) : Option Outcome → Block
  | some .succeeded => block.succeed block.targetTable
  | some (.failed message) => block.fail message
  | some .skipped | none => block

namespace Session

/-- The session after the attempt to run a block, and what is recorded of the block. -/
def conclude (s : Session) (id : BlockId) : Except String (TableName × BlockResult) → Session × Outcome
  | .error message => (s.recordFailure id message, .failed message)
  | .ok (table, result) => (s.recordSuccess id table result, .succeeded)

/-- A failure overwrites the mark that the block is running. -/
theorem recordFailure_start (s : Session) (id : BlockId) (message : String) :
    (s.withGraph (s.graph.modify id Block.start)).recordFailure id message =
      s.recordFailure id message := by
  simp only [recordFailure, withGraph]
  rw [Graph.modify_modify]
  rfl

/-- A success overwrites the mark that the block is running. -/
theorem recordSuccess_start (s : Session) (id : BlockId) (table : TableName) (result : BlockResult) :
    (s.withGraph (s.graph.modify id Block.start)).recordSuccess id table result =
      s.recordSuccess id table result := by
  simp only [recordSuccess, withGraph]
  rw [Graph.modify_modify]
  rfl

/-- The mark that a block is running changes no table that a block reads. -/
theorem inputTable?_start (s : Session) (id : BlockId) :
    (s.withGraph (s.graph.modify id Block.start)).inputTable? other = s.inputTable? other := by
  have htable : ∀ feeder, ((s.graph.modify id Block.start).find? feeder).bind Block.outputTable =
      (s.graph.find? feeder).bind Block.outputTable := fun feeder => by
    rw [Graph.find?_modify]
    cases s.graph.find? feeder with
    | none => rfl
    | some block =>
      rw [Option.map_some, Option.bind_some, Option.bind_some]
      split <;> rfl
  have hinput : ∀ s : Session, s.inputTable? other =
      (s.graph.inputOf other).bind fun feeder => (s.graph.find? feeder).bind Block.outputTable :=
    fun _ => rfl
  rw [hinput, hinput]
  simp only [withGraph, htable]
  rfl

theorem work_start (s : Session) (id : BlockId) (block : Block) :
    (s.withGraph (s.graph.modify id Block.start)).work block = s.work block := by
  rw [work, work, inputTable?_start]

theorem work_of_source (h : block.kind.isSource = true) :
    s.work block = .ok ⟨block.targetTable, none⟩ := by
  rw [work, if_pos h]

theorem work_of_input (h : ¬ block.kind.isSource = true) {input : TableName}
    (hinput : s.inputTable? block.id = some input) :
    s.work block = .ok ⟨block.targetTable,
      Work.statement? (Sql.compile block.config input block.targetTable)⟩ := by
  rw [work, if_neg h, hinput]

/-- Whatever a block makes, it makes its own table. -/
theorem work_output {work : Work} (h : s.work block = .ok work) : work.output = block.targetTable := by
  unfold Session.work at h
  split_ifs at h
  · cases h
    rfl
  · split at h
    · cases h
    · cases h
      rfl

/-- What a block is to make, or why it cannot run. -/
def task (s : Session) (block : Block) : Except String Work :=
  match block.config.validate with
  | .error error => .error error.message
  | .ok () =>
    match s.work block with
    | .error error => .error error.message
    | .ok work => .ok work

theorem task_eq_ok_iff {work : Work} :
    s.task block = .ok work ↔ block.config.validate = .ok () ∧ s.work block = .ok work := by
  unfold task
  cases block.config.validate with
  | error error => simp
  | ok done => cases s.work block <;> simp

theorem outline_conclude (s : Session) (id : BlockId)
    (answer : Except String (TableName × BlockResult)) :
    (s.conclude id answer).1.graph.outline = s.graph.outline := by
  cases answer with
  | error message => exact Graph.outline_modify fun _ => rfl
  | ok made => exact Graph.outline_modify fun _ => rfl

theorem metadata_conclude (s : Session) (id : BlockId)
    (answer : Except String (TableName × BlockResult)) :
    (s.conclude id answer).1.metadata = s.metadata := by
  cases answer <;> rfl

theorem policy_conclude (s : Session) (id : BlockId)
    (answer : Except String (TableName × BlockResult)) :
    (s.conclude id answer).1.policy = s.policy := by
  cases answer <;> rfl

theorem conclude_eq_succeeded {answer : Except String (TableName × BlockResult)}
    (h : (s.conclude id answer).2 = .succeeded) : ∃ table result, answer = .ok (table, result) := by
  cases answer with
  | error message => cases h
  | ok made => exact ⟨made.1, made.2, rfl⟩

/-- A block that is run succeeds or fails. -/
theorem conclude_ne_skipped (s : Session) (id : BlockId)
    (answer : Except String (TableName × BlockResult)) : (s.conclude id answer).2 ≠ .skipped := by
  cases answer <;> simp [conclude]

/-- Blocks other than the one that was run are found as they were. -/
theorem find?_conclude_of_ne (hne : other ≠ id)
    (answer : Except String (TableName × BlockResult)) :
    (s.conclude id answer).1.graph.find? other = s.graph.find? other := by
  cases answer with
  | error message => exact Graph.find?_modify_of_ne hne
  | ok made => exact Graph.find?_modify_of_ne hne

/-- The block that was run is left as what is recorded of it says. -/
theorem find?_conclude_self (hfind : s.graph.find? id = some block)
    {answer : Except String (TableName × BlockResult)}
    (htable : ∀ table result, answer = .ok (table, result) → table = block.targetTable) :
    (s.conclude id answer).1.graph.find? id = some (block.settle (s.conclude id answer).2) := by
  cases answer with
  | error message => exact Graph.find?_modify_self hfind
  | ok made =>
    obtain ⟨table, result⟩ := made
    obtain rfl := htable table result rfl
    exact @Graph.find?_modify_self _ _ _ (·.succeed block.targetTable) hfind

theorem results_conclude_of_failure {answer : Except String (TableName × BlockResult)}
    (h : (s.conclude id answer).2 ≠ .succeeded) :
    (s.conclude id answer).1.results.find? other = s.results.find? other := by
  cases answer with
  | error message => rfl
  | ok made => exact absurd rfl h

theorem results_conclude_of_ne (hne : other ≠ id)
    (answer : Except String (TableName × BlockResult)) :
    (s.conclude id answer).1.results.find? other = s.results.find? other := by
  cases answer with
  | error message => rfl
  | ok made => exact Assoc.find?_insert_of_ne hne _ _

end Session

/-! ## What an engine is asked for -/

namespace Engine

variable (engine : Engine σ) (config : RunConfig)

/-- Makes a table, if a statement is needed for that. -/
def make (work : Work) : Action EngineError σ Unit :=
  match work.statement with
  | none => pure ()
  | some statement => do
    let _ ← engine.execute statement
    return ()

/-- A table is made first, and then its result is fetched. -/
theorem perform_eq (work : Work) :
    engine.perform config work =
      engine.make work >>= fun _ => engine.fetch config work.output := by
  obtain ⟨output, statement⟩ := work
  cases statement with
  | none => rfl
  | some statement =>
    funext state
    have hmake : engine.make ⟨output, some statement⟩ =
        engine.execute statement >>= fun _ => pure () := rfl
    have hperform : engine.perform config ⟨output, some statement⟩ =
        engine.execute statement >>= fun _ => engine.fetch config output := rfl
    rw [hperform, hmake, Action.bind_run, Action.bind_run, Action.bind_run]
    cases engine.execute statement state with
    | mk answer middle => cases answer <;> rfl

/-- What running a block comes to: its table and result, or why there are none. -/
def attempt (s : Session) (block : Block) (state : σ) :
    Except String (TableName × BlockResult) × σ :=
  match s.task block with
  | .error message => (.error message, state)
  | .ok work =>
    match engine.perform config work state with
    | (.error error, state) => (.error error.message, state)
    | (.ok result, state) => (.ok (work.output, result), state)

/-- Running a block is an attempt and its conclusion. -/
theorem runBlock_eq (s : Session) (state : σ) (id : BlockId) (block : Block) :
    engine.runBlock config s state id block =
      ((s.conclude id (engine.attempt config s block state).1).1,
        (engine.attempt config s block state).2,
        (s.conclude id (engine.attempt config s block state).1).2) := by
  unfold runBlock attempt Session.task
  cases block.config.validate with
  | error error => rfl
  | ok _ =>
    simp only [Session.work_start]
    cases s.work block with
    | error error =>
      simp only [Session.recordFailure_start]
      rfl
    | ok work =>
      simp only
      cases engine.perform config work state with
      | mk answer after =>
        cases answer with
        | error error =>
          simp only [Session.recordFailure_start]
          rfl
        | ok result =>
          simp only [Session.recordSuccess_start]
          rfl

/-- A visit of a block that is there runs it and records the outcome. -/
theorem visit_eq {p : Progress σ} (hfind : p.session.graph.find? id = some block) :
    (engine.visit config p id).1 =
      ⟨(p.session.conclude id (engine.attempt config p.session block p.engineState).1).1,
        (engine.attempt config p.session block p.engineState).2,
        p.visits ++ [⟨id,
          (p.session.conclude id (engine.attempt config p.session block p.engineState).1).2⟩]⟩ := by
  rw [visit, hfind]
  simp only [runBlock_eq]

/-- It says whether the outcome is a success. -/
theorem visit_succeeded {p : Progress σ} (hfind : p.session.graph.find? id = some block) :
    (engine.visit config p id).2 =
      (p.session.conclude id (engine.attempt config p.session block p.engineState).1).2.isSuccess := by
  rw [visit, hfind]
  simp only [runBlock_eq]

/-- An attempt that succeeds makes the table of the block, and its result is the one fetched. -/
theorem attempt_eq_ok {config : RunConfig} {state after : σ} {table : TableName}
    {result : BlockResult}
    (h : engine.attempt config s block state = (.ok (table, result), after)) :
    table = block.targetTable ∧ ∃ work, s.work block = .ok work ∧
      engine.perform config work state = (.ok result, after) := by
  unfold attempt at h
  split at h
  · cases h
  · next work htask =>
      have hwork := (Session.task_eq_ok_iff.1 htask).2
      split at h
      · cases h
      · next hperform =>
          cases h
          exact ⟨Session.work_output hwork, work, hwork, hperform⟩

end Engine

end BlockPipeline
