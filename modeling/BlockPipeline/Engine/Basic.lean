import BlockPipeline.Json.Decode
import BlockPipeline.Pipeline.Error
import BlockPipeline.Text.Parts

set_option autoImplicit false

/-! # Engines

An engine is whatever executes statements. It is known only by its answers to three calls, each of
which may change its state and may fail. Nothing else is assumed of it. Any engine can be made to note
each call that it gets together with the error by which it refused it. -/

namespace BlockPipeline

open Json

/-! ## Columns -/

/-- A column as the engine describes it. -/
structure ColumnDescription where
  name : String
  dataType : String
  deriving DecidableEq, Inhabited

/-- What a column holds, as far as showing it goes. -/
inductive SemanticType where
  | string
  | number
  | date
  | boolean
  deriving DecidableEq, Repr, Inhabited

namespace SemanticType

instance : Named SemanticType where
  all := [.string, .number, .date, .boolean]
  name
    | .string => "string"
    | .number => "number"
    | .date => "date"
    | .boolean => "boolean"

/-- The type that the engine's name for it suggests, whatever its case. Numbers are looked for before
    dates, so an `INTERVAL` is a number. -/
def ofDataType (dataType : String) : SemanticType :=
  let lower := dataType.toList.map Char.toLower
  let has (parts : List String) : Bool := parts.any fun part => Text.occurs part.toList lower
  if has ["int", "float", "double", "decimal", "numeric"] then .number
  else if has ["date", "time"] then .date
  else if has ["bool"] then .boolean
  else .string

end SemanticType

/-- A column with what it holds. -/
structure ColumnInfo where
  name : String
  type : SemanticType
  deriving DecidableEq, Inhabited

namespace ColumnInfo

/-- What a described column holds. -/
def ofDescription (column : ColumnDescription) : ColumnInfo :=
  ⟨column.name, .ofDataType column.dataType⟩

/-- The column as JSON. -/
def toJson (column : ColumnInfo) : Json :=
  .object [("name", .string column.name), ("semantic_type", .string (Named.name column.type))]

/-- The fields of a column. -/
def record : Record ColumnInfo where
  name := "ColumnInfo"
  initial := ⟨"", .string⟩
  fields := [
    .required "name" Node.asString fun name c => { c with name },
    .required "semantic_type" Node.asNamed fun type c => { c with type }]

end ColumnInfo

/-! ## Calls -/

/-- An action on a state that may fail. The state changes also when it fails. -/
abbrev Action (ε σ α : Type) := ExceptT ε (StateM σ) α

/-- The three calls that an engine answers. -/
structure Engine (σ : Type) where
  /-- Executes one statement and returns the rows it yields. -/
  execute : String → Action EngineError σ (List Row)
  /-- The columns of a table or view, in order. -/
  describe : TableName → Action EngineError σ (List ColumnDescription)
  /-- Makes a source table of CSV text, in place of any table of that name. -/
  register : TableName → String → Action EngineError σ Unit

/-- A call as it was made. -/
inductive Call where
  | execute (sql : String)
  | describe (table : TableName)
  | register (table : TableName) (content : String)
  deriving DecidableEq

/-- A call, and the error by which it was refused, if it was. -/
structure Exchange where
  call : Call
  refusal : Option EngineError
  deriving DecidableEq

/-- The calls that an engine got, in order. -/
abbrev Transcript := List Exchange

/-- The error of a failure. -/
def refusal? {ε α : Type} : Except ε α → Option ε
  | .ok _ => none
  | .error error => some error

namespace Engine

variable {σ α : Type}

/-- Makes a call and notes it down with its refusal. -/
def exchanging (call : Call) (action : Action EngineError σ α) :
    Action EngineError (σ × Transcript) α :=
  fun (state, transcript) =>
    let (answer, state) := action state
    (answer, (state, transcript ++ [⟨call, refusal? answer⟩]))

/-- The engine that also notes every call it gets, and whether it refuses it. -/
def transcribing (engine : Engine σ) : Engine (σ × Transcript) where
  execute sql := exchanging (.execute sql) (engine.execute sql)
  describe table := exchanging (.describe table) (engine.describe table)
  register table content := exchanging (.register table content) (engine.register table content)

end Engine

end BlockPipeline
