import BlockPipeline.Pipeline.Definition
import BlockPipeline.Pipeline.Traversal
import BlockPipeline.Sql.Compile

set_option autoImplicit false

/-! # Plans

A plan holds the statements that a whole run of a pipeline would issue. Input tables are foretold from
the graph, so a plan does not depend on what has run before. -/

namespace BlockPipeline

open Json

/-- A block that can run: what it reads, what it makes, and how. -/
structure PlannedBlock where
  id : BlockId
  kind : BlockKind
  input : Option TableName
  output : TableName
  sql : String
  deriving DecidableEq

/-- A block that cannot run, and why. -/
structure SkippedBlock where
  id : BlockId
  reason : String
  deriving DecidableEq

/-- The blocks that can run, each after the one that feeds it, and those that cannot. -/
structure Plan where
  blocks : List PlannedBlock
  skipped : List SkippedBlock
  deriving DecidableEq

namespace Plan

/-- The entry of a block that can run. -/
def find? (plan : Plan) (id : BlockId) : Option PlannedBlock := plan.blocks.find? (·.id == id)

/-- The statements in the order of the blocks. -/
def statements (plan : Plan) : List String :=
  (plan.blocks.map PlannedBlock.sql).filter (!·.isEmpty)

/-- What becomes of a block once the blocks before it are planned. -/
def entry (plan : Plan) (g : Graph) (block : Block) : Except String PlannedBlock := do
  if let .error error := block.config.validate then throw error.message
  let output := block.targetTable
  if block.kind.isSource then return ⟨block.id, block.kind, none, output, ""⟩
  match g.inputOf block.id with
  | none => throw PipelineError.missingInput.message
  | some feeder =>
    match plan.find? feeder with
    | none => throw ("upstream block " ++ feeder.text ++ " was skipped")
    | some planned =>
      return ⟨block.id, block.kind, some planned.output, output,
        (Sql.compile block.config planned.output output).text⟩

/-- Plans one more block. -/
def extend (g : Graph) (plan : Plan) (id : BlockId) : Plan :=
  match g.find? id with
  | none => plan
  | some block =>
    match plan.entry g block with
    | .ok planned => { plan with blocks := plan.blocks ++ [planned] }
    | .error reason => { plan with skipped := plan.skipped ++ [⟨id, reason⟩] }

/-- The plan of a graph. -/
def ofGraph (g : Graph) : Plan := g.topologicalOrder.foldl (extend g) ⟨[], []⟩

end Plan

/-! ## JSON -/

/-- The entry as JSON. -/
def PlannedBlock.toJson (block : PlannedBlock) : Json :=
  .object ([("block_id", block.id.toJson), ("kind", .string block.kind.name)]
    ++ optionalField "input" (block.input.map TableName.toJson)
    ++ [("output", block.output.toJson), ("sql", .string block.sql)])

/-- The entry as JSON. -/
def SkippedBlock.toJson (block : SkippedBlock) : Json :=
  .object [("block_id", block.id.toJson), ("reason", .string block.reason)]

/-- The plan as JSON. -/
def Plan.toJson (plan : Plan) : Json :=
  .object [("blocks", .array (plan.blocks.map PlannedBlock.toJson)),
    ("skipped", .array (plan.skipped.map SkippedBlock.toJson))]

/-- The fields of an entry. -/
def PlannedBlock.record : Record PlannedBlock where
  name := "CompiledBlock"
  initial := ⟨.nil, .load, none, ⟨""⟩, ""⟩
  fields := [
    .required "block_id" Uuid.decode fun id b => { b with id },
    .required "kind" Node.asNamed fun kind b => { b with kind },
    .nullable "input" TableName.decode fun input b => { b with input },
    .required "output" TableName.decode fun output b => { b with output },
    .required "sql" Node.asString fun sql b => { b with sql }]

/-- The fields of an entry. -/
def SkippedBlock.record : Record SkippedBlock where
  name := "SkippedBlock"
  initial := ⟨.nil, ""⟩
  fields := [
    .required "block_id" Uuid.decode fun id b => { b with id },
    .required "reason" Node.asString fun reason b => { b with reason }]

/-- The fields of a plan. -/
def Plan.record : Record Plan where
  name := "CompiledPlan"
  initial := ⟨[], []⟩
  fields := [
    .required "blocks" (Node.asList PlannedBlock.record.decode) fun blocks p => { p with blocks },
    .required "skipped" (Node.asList SkippedBlock.record.decode) fun skipped p =>
      { p with skipped }]

/-- A plan from its text. -/
def Plan.ofText (text : String) : Decoded Plan := decodeText Plan.record.decode text

end BlockPipeline
