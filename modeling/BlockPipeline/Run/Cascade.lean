import BlockPipeline.Run.Config
import BlockPipeline.Run.Visit
import BlockPipeline.Session.Basic

set_option autoImplicit false

/-! # Runs

A block runs when it is complete and has an input to read. Running it makes its table and fetches the
result. A run begins at a block and goes down to all blocks below it; under a block that fails, blocks
are skipped and stay as they are. Calls are made one at a time, so no block reads a table that is not
yet made. -/

namespace BlockPipeline

open Json

/-- Where a run stands: the session, the state of the engine, and the visits so far. -/
structure Progress (σ : Type) where
  session : Session
  engineState : σ
  visits : Visits

/-- Where the way down from a block stands: the run, the blocks that have been taken up, and those of
    them under which blocks are skipped. -/
structure Descent (σ : Type) where
  progress : Progress σ
  taken : List BlockId
  halted : List BlockId

/-- What a block is to make: its table, and the statement that makes it if one is needed. -/
structure Work where
  output : TableName
  statement : Option String
  deriving DecidableEq

/-- The text of a statement, if there is anything to be done. -/
def Work.statement? (statement : Sql.Statement) : Option String :=
  if statement.isBlank then none else some statement.text

namespace Session

/-- The table that a block reads: what the block that feeds it made last. -/
def inputTable? (s : Session) (id : BlockId) : Option TableName := do
  let feeder ← s.graph.inputOf id
  (← s.graph.find? feeder).outputTable

/-- What a complete block is to make. -/
def work (s : Session) (block : Block) : Except PipelineError Work :=
  if block.kind.isSource then .ok ⟨block.targetTable, none⟩
  else match s.inputTable? block.id with
    | none => .error .missingInput
    | some input =>
      .ok ⟨block.targetTable,
        Work.statement? (Sql.compile block.config input block.targetTable)⟩

/-- The session after a block has succeeded. -/
def recordSuccess (s : Session) (id : BlockId) (output : TableName) (result : BlockResult) :
    Session :=
  { s with
    graph := s.graph.modify id (·.succeed output)
    results := s.results.insert id result }

/-- The session after a block has failed. -/
def recordFailure (s : Session) (id : BlockId) (message : String) : Session :=
  s.withGraph (s.graph.modify id (·.fail message))

end Session

/-- The number of rows that a counting statement yields: its value under the usual name, or else its
    first one, if that is a natural or the text of one. -/
def rowCount? (row : Row) : Option Nat :=
  match Assoc.find? Sql.rowCountColumn row <|> row.head?.map Prod.snd with
  | some (.number n) => n.natural?
  | some (.string text) => Text.natural? 64 text
  | _ => none

namespace Engine

variable {σ : Type} (engine : Engine σ) (config : RunConfig)

/-- The result of a table: its columns, its first rows and the number of all. -/
def fetch (table : TableName) : Action EngineError σ BlockResult := do
  let columns ← engine.describe table
  let rows ← engine.execute (Sql.preview table config.previewLimit).text
  let counted ← engine.execute (Sql.countRows table).text
  let rowCount := (counted.head?.bind rowCount?).getD rows.length
  return ⟨columns.map ColumnInfo.ofDescription, rows, rowCount⟩

/-- Makes a table and fetches its result. -/
def perform (work : Work) : Action EngineError σ BlockResult := do
  if let some statement := work.statement then
    let _ ← engine.execute statement
  engine.fetch config work.output

/-- Runs the block found under an identifier. -/
def runBlock (s : Session) (state : σ) (id : BlockId) (block : Block) : Session × σ × Outcome :=
  match block.config.validate with
  | .error error => (s.recordFailure id error.message, state, .failed error.message)
  | .ok () =>
    let s := s.withGraph (s.graph.modify id Block.start)
    match s.work block with
    | .error error => (s.recordFailure id error.message, state, .failed error.message)
    | .ok work =>
      match engine.perform config work state with
      | (.error error, state) =>
        (s.recordFailure id error.message, state, .failed error.message)
      | (.ok result, state) => (s.recordSuccess id work.output result, state, .succeeded)

/-- Runs a block and records what became of it. Says also whether it succeeded. -/
def visit (p : Progress σ) (id : BlockId) : Progress σ × Bool :=
  match p.session.graph.find? id with
  | none => (p, false)
  | some block =>
    let (session, engineState, outcome) := engine.runBlock config p.session p.engineState id block
    (⟨session, engineState, p.visits ++ [⟨id, outcome⟩]⟩, outcome.isSuccess)

/-- Goes on to a block below, unless it has been taken up before. It is skipped if the block that
    feeds it is halted, and halted itself unless it succeeds. -/
def descend (d : Descent σ) (id : BlockId) : Descent σ :=
  if id ∈ d.taken then d
  else if (d.progress.session.graph.inputOf id).any (· ∈ d.halted) then
    { progress := { d.progress with visits := d.progress.visits ++ [⟨id, .skipped⟩] }
      taken := id :: d.taken
      halted := id :: d.halted }
  else
    let (progress, succeeded) := engine.visit config d.progress id
    { progress, taken := id :: d.taken, halted := if succeeded then d.halted else id :: d.halted }

/-- Runs a block and, if it succeeds, all blocks below it. Keeps to blocks that have not been taken up
    before. -/
def cascade : Progress σ × List BlockId → BlockId → Progress σ × List BlockId
  | (p, taken), root =>
    if root ∈ taken then (p, taken)
    else
      let (p, succeeded) := engine.visit config p root
      if succeeded then
        let d := (p.session.graph.downstreamOf root).foldl (engine.descend config)
          ⟨p, root :: taken, []⟩
        (d.progress, d.taken)
      else (p, root :: taken)

/-- Runs a block and all blocks below it. -/
def run (s : Session) (state : σ) (id : BlockId) : Except PipelineError (Progress σ) := do
  if s.graph.contains id then return (engine.cascade config (⟨s, state, []⟩, []) id).1
  else throw (.blockNotFound id)

/-- Runs every load block in pipeline order, each with all blocks below it. -/
def runAll (s : Session) (state : σ) : Progress σ :=
  (s.graph.roots.foldl (engine.cascade config) (⟨s, state, []⟩, [])).1

/-- Removes a block from the session and its table from the engine, if that is wanted and the block
    has made one. An engine that refuses does not keep the block from being removed. -/
def removeBlock (s : Session) (state : σ) (id : BlockId) :
    Except PipelineError (Session × σ × Block) := do
  let (s, block) ← s.remove id
  match block.outputTable with
  | none => return (s, state, block)
  | some table =>
    let statement := Sql.drop block.kind table
    if config.dropOnRemove && !statement.isBlank then
      let (_, state) := engine.execute statement.text state
      return (s, state, block)
    else return (s, state, block)

/-- Makes a source table of CSV text and returns its columns. -/
def ingest (table : TableName) (content : String) : Action EngineError σ (List ColumnInfo) := do
  engine.register table content
  let columns ← engine.describe table
  return columns.map ColumnInfo.ofDescription

end Engine

end BlockPipeline
