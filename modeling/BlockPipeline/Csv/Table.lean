import BlockPipeline.Assoc
import BlockPipeline.Csv.Reader
import BlockPipeline.Engine.Basic
import BlockPipeline.Number.Text
import BlockPipeline.Text.Parts

set_option autoImplicit false

/-! # Tables from comma-separated text

The first record names the columns. The type of a column is the narrowest that all its fields have. -/

namespace BlockPipeline

/-- A table: its columns in order, and its rows in order. -/
structure Table where
  columns : List ColumnDescription
  rows : List Row
  deriving DecidableEq, Inhabited

namespace Csv

/-- What a column holds. -/
inductive ColumnType where
  | integer
  | float
  | boolean
  | text
  deriving DecidableEq, Repr

/-- The name of a type in the database. -/
def ColumnType.name : ColumnType → String
  | .integer => "BIGINT"
  | .float => "DOUBLE"
  | .boolean => "BOOLEAN"
  | .text => "VARCHAR"

/-- The narrowest type that all fields have. -/
def ColumnType.ofFields (fields : List String) : ColumnType :=
  if fields.all fun field => (Text.integer? 64 field).isSome then .integer
  else if fields.all fun field => (Number.Format.double.ofText? field).isSome then .float
  else if fields.all fun field => field == "true" || field == "false" then .boolean
  else .text

/-- The value of a field in a column of the type. -/
def ColumnType.value (type : ColumnType) (field : String) : Json :=
  match type with
  | .integer => ((Text.integer? 64 field).map Json.ofInt).getD .null
  | .float => ((Number.Format.double.ofText? field).map Json.ofFloating).getD .null
  | .boolean => .bool (field == "true")
  | .text => .string field

/-- Why a text is no table. -/
inductive TableError where
  | noHeader
  /-- A record, counted from the header on, has another number of fields than the header. -/
  | unequalLength (index : Nat) (record : Record) (expected : Nat)
  deriving DecidableEq

/-- The text of an error. -/
def TableError.message : TableError → String
  | .noHeader => "CSV content has no header line"
  | .unequalLength index record expected =>
    "invalid CSV record: CSV error: record " ++ Text.naturalText index
      ++ " (line: " ++ Text.naturalText record.position.line
      ++ ", byte: " ++ Text.naturalText record.position.byte
      ++ "): found record with " ++ Text.naturalText record.fields.length
      ++ " fields, but the previous record has " ++ Text.naturalText expected ++ " fields"

/-- Checks that all records from the given index on have as many fields as the header. -/
def checkLengths (expected : Nat) : Nat → List Record → Except TableError Unit
  | _, [] => .ok ()
  | index, record :: rest =>
    if record.fields.length = expected then checkLengths expected (index + 1) rest
    else .error (.unequalLength index record expected)

/-- The fields at one place of all records. -/
def columnAt (records : List (List String)) (place : Nat) : List String :=
  records.filterMap (·[place]?)

/-- The types of the columns. -/
def columnTypes (width : Nat) (records : List (List String)) : List ColumnType :=
  (List.range width).map fun place => .ofFields (columnAt records place)

/-- A row of named values. Of columns with the same name the last one holds. -/
def row (names : List String) (types : List ColumnType) (fields : List String) : Row :=
  Assoc.ofList (names.zip (types.zipWith ColumnType.value fields))

end Csv

/-- The table of a text. Fields lose the white space around them. -/
def Table.ofCsv (text : String) : Except Csv.TableError Table := do
  let (header, records) := match Csv.records text with
    | [] => ([], [])
    | first :: rest => (first.fields.map Text.trimmed, rest)
  if header.all String.isEmpty then throw .noHeader
  Csv.checkLengths header.length 1 records
  let fields := records.map fun record => record.fields.map Text.trimmed
  let types := Csv.columnTypes header.length fields
  return {
    columns := header.zipWith (fun name type => ⟨name, type.name⟩) types
    rows := fields.map (Csv.row header types) }

end BlockPipeline
