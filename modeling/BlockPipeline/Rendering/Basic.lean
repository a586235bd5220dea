import BlockPipeline.Session.Basic

set_option autoImplicit false

/-! # What is shown without a run

Schemas are the columns of source tables, for a reader. A plan is shown as a script of its statements.
The label of each block stands in a comment before its statement; blocks without a statement have a
comment alone. -/

namespace BlockPipeline

/-! ## Formats -/

/-- How results are shown. -/
inductive OutputFormat where
  | text
  | json
  deriving DecidableEq, Repr, Inhabited

instance : Named OutputFormat where
  all := [.text, .json]
  name
    | .text => "text"
    | .json => "json"

/-! ## Schemas -/

/-- A source table and its columns. -/
structure Schema where
  table : TableName
  columns : List ColumnInfo
  deriving DecidableEq

namespace Schema

/-- The schema as JSON. -/
def toJson (schema : Schema) : Json :=
  .object [("table", schema.table.toJson),
    ("columns", .array (schema.columns.map ColumnInfo.toJson))]

/-- The line of a column: its name, with room for twenty-four characters, and its type. -/
def columnText (column : ColumnInfo) : String :=
  let room := List.replicate (24 - column.name.toList.length) ' '
  "  " ++ column.name ++ String.ofList room ++ " " ++ Named.name column.type ++ "\n"

/-- The schema as text. -/
def text (schema : Schema) : String :=
  schema.table.text ++ "\n" ++ String.join (schema.columns.map columnText)

/-- Schemas in the wanted format. -/
def render (schemas : List Schema) (format : OutputFormat) : String :=
  match format with
  | .text => String.join (schemas.map text)
  | .json => Json.pretty (.array (schemas.map toJson))

end Schema

/-! ## Plans as scripts -/

namespace Session

/-- What a block is called: its label, or its identifier if the block is not there. -/
def labelOf (s : Session) (id : BlockId) : String :=
  match s.graph.find? id with
  | some block => block.label
  | none => id.text

/-- The part of a script for a block that can run. -/
def plannedPart (s : Session) (block : PlannedBlock) : String :=
  if block.sql.isEmpty then
    "-- " ++ s.labelOf block.id ++ ": source table " ++ block.output.text ++ "\n\n"
  else "-- " ++ s.labelOf block.id ++ "\n" ++ block.sql ++ ";\n\n"

/-- The part of a script for a block that cannot run. -/
def skippedPart (s : Session) (block : SkippedBlock) : String :=
  "-- " ++ s.labelOf block.id ++ ": skipped (" ++ block.reason ++ ")\n"

/-- The script of a plan. -/
def script (s : Session) (plan : Plan) : String :=
  String.join (plan.blocks.map s.plannedPart ++ plan.skipped.map s.skippedPart)

/-- A plan in the wanted format. -/
def renderPlan (s : Session) (plan : Plan) (format : OutputFormat) : String :=
  match format with
  | .text => s.script plan
  | .json => plan.toJson.pretty

end Session

end BlockPipeline
