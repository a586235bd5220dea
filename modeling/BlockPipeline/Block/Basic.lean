import BlockPipeline.Block.Validation

set_option autoImplicit false

/-! # Blocks

A block is one stage of a pipeline: what it is to do and how its last run went. Only a successful run
sets its output table and takes away its staleness. -/

namespace BlockPipeline

/-- How the last run of a block went. -/
inductive BlockStatus where
  | idle
  | running
  | success
  | error (message : String)
  deriving DecidableEq, Inhabited

namespace BlockStatus

/-- Did the last run succeed? -/
def isSuccess : BlockStatus → Bool
  | .success => true
  | _ => false

/-- Did the last run fail? -/
def isError : BlockStatus → Bool
  | .error _ => true
  | _ => false

/-- Why the last run failed, if it did. -/
def failure? : BlockStatus → Option String
  | .error message => some message
  | _ => none

end BlockStatus

/-- A stage of a pipeline. -/
structure Block where
  id : BlockId
  label : String
  config : BlockConfig
  status : BlockStatus
  outputTable : Option TableName
  isStale : Bool
  deriving DecidableEq, Inhabited

namespace Block

/-- A block that has not run yet. -/
def ofConfig (id : BlockId) (config : BlockConfig) : Block where
  id := id
  label := config.kind.defaultLabel
  config := config
  status := .idle
  outputTable := none
  isStale := false

/-- A block of the kind that has not run yet. -/
def ofKind (id : BlockId) (kind : BlockKind) : Block := ofConfig id (.default kind)

/-- The kind of the block. -/
def kind (block : Block) : BlockKind := block.config.kind

/-- The table that the block makes when it runs: its source table, or the one named for it. -/
def targetTable (block : Block) : TableName :=
  match block.config with
  | .load config => ⟨config.tableName⟩
  | _ => .derived block.id

/-- The block is running. -/
def start (block : Block) : Block := { block with status := .running }

/-- The block has made its table. -/
def succeed (block : Block) (table : TableName) : Block :=
  { block with status := .success, outputTable := some table, isStale := false }

/-- The block has failed. Its former output remains. -/
def fail (block : Block) (message : String) : Block := { block with status := .error message }

/-- The cached result of the block may be out of date. -/
def markStale (block : Block) : Block := { block with isStale := true }

/-- A copy under another identifier that has not run yet. -/
def duplicate (block : Block) (id : BlockId) : Block :=
  { ofConfig id block.config with label := block.label ++ " (Copy)" }

end Block

end BlockPipeline
