import BlockPipeline.Engine.Basic
import BlockPipeline.Json.Sorted

set_option autoImplicit false

/-! # Results

The last output of a block is kept as its columns, its first rows and the number of all its rows.
Results are replaced by every successful run, and outlive failure and staleness. -/

namespace BlockPipeline

open Json

/-- The output of a block as far as it is kept. -/
structure BlockResult where
  columns : List ColumnInfo := []
  rows : List Row := []
  rowCount : Nat := 0
  deriving DecidableEq, Inhabited

namespace BlockResult

/-- Are all rows of the output kept? -/
def isComplete (result : BlockResult) : Bool := result.rowCount ≤ result.rows.length

/-- The result as JSON. -/
def toJson (result : BlockResult) : Json :=
  .object [("columns", .array (result.columns.map ColumnInfo.toJson)),
    ("rows", .array (result.rows.map Json.object)), ("row_count", .ofNat result.rowCount)]

/-- The fields of a result. -/
def record : Record BlockResult where
  name := "BlockResult"
  initial := {}
  fields := [
    .required "columns" (Node.asList ColumnInfo.record.decode) fun columns r => { r with columns },
    .required "rows" (Node.asList Node.asRow) fun rows r => { r with rows },
    .required "row_count" (Node.asNatural "u64") fun rowCount r => { r with rowCount }]

/-- A result from its text. -/
def ofText (text : String) : Decoded BlockResult := decodeText record.decode text

end BlockResult

/-- Results by block, in the order of identifiers. -/
abbrev ResultStore := List (BlockId × BlockResult)

namespace ResultStore

/-- The result of a block. -/
def find? (store : ResultStore) (id : BlockId) : Option BlockResult := Assoc.find? id store

/-- Does the block have a result? -/
def contains (store : ResultStore) (id : BlockId) : Bool := Assoc.contains id store

/-- Keeps a result, in place of the former one. -/
def insert (store : ResultStore) (id : BlockId) (result : BlockResult) : ResultStore :=
  Assoc.insert id result store

/-- Drops the result of a block. -/
def remove (store : ResultStore) (id : BlockId) : ResultStore := Assoc.erase id store

/-- The blocks that have a result. -/
def ids (store : ResultStore) : List BlockId := store.map Prod.fst

end ResultStore

end BlockPipeline
